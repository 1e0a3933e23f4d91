import BlockFlow.Proofs.Sheet.Recognition
import BlockFlow.Proofs.Sheet.Sessions

/-! # Loops turn by turn

The loops of the readers are taken apart into turns. A turn ends its loop, or it reads an item and
leaves the rest of the text to the next turn. Where every turn but the last takes some text the loop
comes to an end; only the loop over a bare list of declarations, in recovering mode, need not.
-/

namespace BlockFlow

open Grammar

variable {α β : Type}

/-- What one turn of a loop comes to: the loop is left, with a result or a failure, or it goes on. -/
inductive Turn (α β : Type)
  | last (result : β)
  | next (item : α) (rest : List Char)

/-- The turns of a loop up to its last one, with what was read in them. -/
inductive Turns (turn : List Char → Turn α β) : List Char → List α → β → Prop
  | last {text result} : turn text = .last result → Turns turn text [] result
  | next {text item rest items result} : turn text = .next item rest →
      Turns turn rest items result → Turns turn text (item :: items) result

/-- The reader makes a turn and then goes on from where it ended; only the last takes no text. -/
structure Advancing (turn : List Char → Turn α β) (add : α → β → β) (read : List Char → β) :
    Prop where
  unroll : ∀ text, read text = match turn text with
    | .last result => result
    | .next item rest => add item (read rest)
  advance : ∀ {text item rest}, turn text = .next item rest →
    ∃ taken, taken ≠ [] ∧ text = taken ++ rest

/-- Its turns come to an end from everywhere, and the reader gives what was read in them. -/
structure TurnByTurn (turn : List Char → Turn α β) (add : α → β → β) (read : List Char → β) :
    Prop extends Advancing turn add read where
  run : ∀ text, ∃ items result, Turns turn text items result ∧ read text = items.foldr add result

namespace Turns

variable {turn : List Char → Turn α β} {text : List Char}

theorem unique {items items' : List α} {result result' : β} (h : Turns turn text items result)
    (h' : Turns turn text items' result') : items = items' ∧ result = result' := by
  induction h generalizing items' with
  | last hTurn =>
    cases h' with
    | last hTurn' => exact ⟨rfl, Turn.last.inj (hTurn.symm.trans hTurn')⟩
    | next hTurn' _ => cases hTurn.symm.trans hTurn'
  | next hTurn _ ih =>
    cases h' with
    | last hTurn' => cases hTurn.symm.trans hTurn'
    | next hTurn' hTurns' =>
      obtain ⟨rfl, rfl⟩ := Turn.next.inj (hTurn.symm.trans hTurn')
      obtain ⟨rfl, rfl⟩ := ih hTurns'
      exact ⟨rfl, rfl⟩

end Turns

theorem Advancing.turnByTurn {turn : List Char → Turn α β} {add : α → β → β}
    {read : List Char → β} (h : Advancing turn add read) : TurnByTurn turn add read := by
  refine ⟨h, fun text => ?_⟩
  -- each turn leaves less text
  induction hLength : text.length using Nat.strongRecOn generalizing text with
  | ind n ih =>
    have hUnroll := h.unroll text
    cases hTurn : turn text with
    | last result =>
      rw [hTurn] at hUnroll
      exact ⟨[], result, .last hTurn, hUnroll⟩
    | next item rest =>
      obtain ⟨taken, hTaken, hText⟩ := h.advance hTurn
      have hLess : rest.length < n := by
        have := List.length_pos_iff.mpr hTaken
        rw [← hLength, hText, List.length_append]
        omega
      obtain ⟨items, result, hTurns, hRead⟩ := ih _ hLess rest rfl
      rw [hTurn] at hUnroll
      dsimp only at hUnroll
      rw [hRead] at hUnroll
      exact ⟨item :: items, result, .next hTurn hTurns, hUnroll⟩

theorem exists_taken {text rest : List Char} (hSuffix : rest <:+ text)
    (hLess : rest.length < text.length) : ∃ taken, taken ≠ [] ∧ text = taken ++ rest := by
  obtain ⟨taken, rfl⟩ := hSuffix
  refine ⟨taken, ?_, rfl⟩
  rintro rfl
  exact absurd hLess (Nat.lt_irrefl _)

/-! ## Selectors -/

def partTurn (text : List Char) : Turn SelectorPart (Reading (List SelectorPart)) :=
  match SelectorPart.read? text with
  | none => .last (.ok ([], text))
  | some (.error failure) => .last (.error failure)
  | some (.ok (part, rest)) => .next part rest

theorem advancing_readParts :
    Advancing partTurn (fun part r => r.map (part :: ·)) readParts := by
  constructor
  case unroll =>
    intro text
    rw [readParts, partTurn]
    split
    · next hRead => simp only [hRead]
    · next hRead => simp only [hRead]
    · next hRead => simp only [hRead]
  case advance =>
    intro text part rest h
    unfold partTurn at h
    split at h
    · cases h
    · cases h
    · next hRead =>
      cases h
      exact exists_taken (SelectorPart.read?_within hRead) (SelectorPart.length_lt_of_read? hRead)

def selectorTurn (text : List Char) : Turn Selector (Reading (List Selector)) :=
  match readParts text with
  | .error failure => .last (.error failure)
  | .ok (parts, after) =>
    match Text.skipBlanks after with
    | [] => .last (.error (.here .endOfSelectors []))
    | c :: more =>
      if c = ',' then .next (Selector.ofParts parts) (Text.skipBlanks more)
      else if c = '\x7b' then .last (.ok ([Selector.ofParts parts], more))
      else .last (.error (.here (.strayInSelectors c) (c :: more)))

theorem advancing_readSelectors :
    Advancing selectorTurn (fun s r => r.map (s :: ·)) readSelectors := by
  constructor
  case unroll =>
    intro text
    cases hParts : readParts text with
    | error failure =>
      rw [readSelectors_of_parts_error hParts, selectorTurn, hParts]
    | ok p =>
      obtain ⟨parts, after⟩ := p
      rw [readSelectors_of_parts hParts, selectorTurn, hParts]
      dsimp only
      cases Text.skipBlanks after with
      | nil => rfl
      | cons c more =>
        dsimp only
        split_ifs <;> rfl
  case advance =>
    intro text s rest h
    unfold selectorTurn at h
    split at h
    · cases h
    · next parts after hParts =>
      have hAfter : after <:+ text := by
        have hWithin := readParts_within text
        rwa [hParts] at hWithin
      split at h
      · cases h
      · next c more hSkip =>
        have hMore : c :: more <:+ text := (Text.suffix_of_skipBlanks hSkip).trans hAfter
        split_ifs at h
        cases h
        have hRest : Text.skipBlanks more <:+ more := Text.skipBlanks_suffix more
        refine exists_taken (hRest.trans ((List.suffix_cons c more).trans hMore)) ?_
        exact Nat.lt_of_le_of_lt hRest.length_le hMore.length_le

/-! ## Rules -/

def entryTurn (mode : Mode) (text : List Char) :
    Turn Entry (Outcome (List (Declaration Float))) :=
  match Text.skipBlanks text with
  | [] => .last ⟨[], .error (.here .unclosedRule [])⟩
  | c :: more =>
    if c = '\x7d' then .last ⟨[], .ok ([], more)⟩
    else match Entry.read mode (c :: more) with
      | .error failure => .last ⟨[], .error failure⟩
      | .ok (entry, rest) => .next entry rest

theorem advancing_readBody (mode : Mode) :
    Advancing (entryTurn mode) Outcome.withEntry (readBody mode) := by
  constructor
  case unroll =>
    intro text
    rw [readBody_eq, entryTurn]
    cases Text.skipBlanks text with
    | nil => rfl
    | cons c more =>
      dsimp only
      split
      · rfl
      · cases Entry.read mode (c :: more) <;> rfl
  case advance =>
    intro text entry rest h
    unfold entryTurn at h
    split at h
    · cases h
    · next c more hSkip =>
      have hText : c :: more <:+ text := Text.suffix_of_skipBlanks hSkip
      split at h
      · cases h
      · next hBrace =>
        split at h
        · cases h
        · next hRead =>
          cases h
          have hWithin := Entry.read_within mode (c :: more)
          rw [hRead] at hWithin
          exact exists_taken (List.IsSuffix.trans hWithin hText)
            (Text.length_lt_of_skipBlanks hSkip (Entry.length_lt_of_read hBrace hRead))

/-- A turn over rules gives a rule and what was passed over in it. -/
def ruleTurn (mode : Mode) (text : List Char) :
    Turn (List Skipped × Rule) (Outcome (List Rule)) :=
  match Text.skipBlanks text with
  | [] => .last ⟨[], .ok ([], [])⟩
  | c :: more =>
    match Rule.read mode (c :: more) with
    | ⟨skipped, .error failure⟩ => .last ⟨skipped, .error failure⟩
    | ⟨skipped, .ok (rule, rest)⟩ => .next (skipped, rule) rest

def Outcome.withRule (item : List Skipped × Rule) (o : Outcome (List Rule)) :
    Outcome (List Rule) :=
  ⟨item.1 ++ o.skipped, o.reading.map (item.2 :: ·)⟩

theorem advancing_readRules (mode : Mode) :
    Advancing (ruleTurn mode) Outcome.withRule (readRules mode) := by
  constructor
  case unroll =>
    intro text
    rw [readRules_eq, ruleTurn]
    cases Text.skipBlanks text with
    | nil => rfl
    | cons c more =>
      dsimp only
      rcases Rule.read mode (c :: more) with ⟨skipped, reading⟩
      cases reading <;> rfl
  case advance =>
    intro text item rest h
    unfold ruleTurn at h
    split at h
    · cases h
    · next c more hSkip =>
      split at h
      · cases h
      · next skipped rule after hRead =>
        cases h
        have hReading := congrArg Outcome.reading hRead
        have hWithin := Rule.read_within mode (c :: more)
        rw [hReading] at hWithin
        exact exists_taken (List.IsSuffix.trans hWithin (Text.suffix_of_skipBlanks hSkip))
          (Text.length_lt_of_skipBlanks hSkip (Rule.length_lt_of_read hReading))

/-! ## Bare declarations in recovering mode -/

/-- A turn over a bare list of declarations in recovering mode. It is not left at a closing brace,
which no entry takes. -/
def recoverTurn (text : List Char) : Turn Entry (List Entry) :=
  match Text.skipBlanks text with
  | [] => .last []
  | c :: more => .next (Entry.recover (c :: more)).1 (Entry.recover (c :: more)).2

theorem turns_of_recoverEntries? {text : List Char} {entries : List Entry}
    (h : recoverEntries? text = some entries) : Turns recoverTurn text entries [] := by
  fun_induction recoverEntries? text generalizing entries with
  | case1 text hSkip =>
    cases h
    exact .last (by rw [recoverTurn, hSkip])
  | case2 text more hSkip => cases h
  | case3 text c more hSkip hBrace _ ih =>
    obtain ⟨others, hOthers, rfl⟩ := Option.map_eq_some_iff.mp h
    exact .next (by rw [recoverTurn, hSkip]) (ih hOthers)

end BlockFlow
