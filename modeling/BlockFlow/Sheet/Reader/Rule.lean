import BlockFlow.Sheet.Reader.Declaration
import BlockFlow.Sheet.Reader.Selector

/-! # Reading rules

Rules are read one after another to the end of the text. What was passed over in recovering mode is
kept in order, also when a later fault ends the reading: a fault outside a declaration always does.
-/

namespace BlockFlow

/-- A reading, with what was passed over before it ended. -/
structure Outcome (α : Type) where
  skipped : List Skipped
  reading : Reading α

namespace Outcome

variable {α β : Type}

def map (f : α → β) (o : Outcome α) : Outcome β := ⟨o.skipped, o.reading.map f⟩

def andThen (o : Outcome α) (k : α → List Char → Outcome β) : Outcome β :=
  match o.reading with
  | .ok (a, rest) =>
    let next := k a rest
    ⟨o.skipped ++ next.skipped, next.reading⟩
  | .error failure => ⟨o.skipped, .error failure⟩

def withEntry (e : Entry) (o : Outcome (List (Declaration Float))) :
    Outcome (List (Declaration Float)) :=
  match e with
  | .declaration d => o.map (d :: ·)
  | .skipped s => ⟨s :: o.skipped, o.reading⟩

end Outcome

/-- The declarations of a rule, from behind its opening brace to behind its closing one. -/
def readBody (mode : Mode) (text : List Char) : Outcome (List (Declaration Float)) :=
  match h : Text.skipBlanks text with
  | [] => ⟨[], .error (.here .unclosedRule [])⟩
  | c :: more =>
    if hc : c = '\x7d' then ⟨[], .ok ([], more)⟩
    else
      match h' : Entry.read mode (c :: more) with
      | .error failure => ⟨[], .error failure⟩
      | .ok (entry, rest) =>
        have : rest.length < text.length :=
          Text.length_lt_of_skipBlanks h (Entry.length_lt_of_read hc h')
        (readBody mode rest).withEntry entry
termination_by text.length

/-- A rule: a group of selectors, kept by rank, and the declarations for it. -/
def Rule.read (mode : Mode) (text : List Char) : Outcome Rule :=
  Outcome.andThen ⟨[], readSelectors text⟩ fun selectors rest =>
    (readBody mode rest).map fun declarations => ⟨Selector.bySpecificity selectors, declarations⟩

theorem Reading.Within.withEntry {text : List Char} {o : Outcome (List (Declaration Float))}
    (h : o.reading.Within text) (e : Entry) : (o.withEntry e).reading.Within text := by
  cases e with
  | declaration d => exact h.map
  | skipped s => exact h

theorem readBody_within (mode : Mode) (text : List Char) :
    (readBody mode text).reading.Within text := by
  fun_induction readBody mode text with
  | case1 text h => exact .here List.nil_suffix
  | case2 text more h =>
    exact (List.suffix_cons _ _).trans (Text.suffix_of_skipBlanks h)
  | case3 text c more h hc failure h' =>
    have hw := Entry.read_within mode (c :: more)
    rw [h'] at hw
    exact (show Reading.Within (c :: more) (.error failure : Reading _) from hw).mono
      (Text.suffix_of_skipBlanks h)
  | case4 text c more h hc entry rest h' _ ih =>
    have hw := Entry.read_within mode (c :: more)
    rw [h'] at hw
    exact (ih.withEntry entry).mono
      (List.IsSuffix.trans hw (Text.suffix_of_skipBlanks h))

theorem Rule.read_within (mode : Mode) (text : List Char) :
    (Rule.read mode text).reading.Within text := by
  have hw := readSelectors_within text
  unfold Rule.read Outcome.andThen
  dsimp only
  split
  · next selectors rest heq =>
    rw [heq] at hw
    exact (readBody_within mode rest).map.mono hw
  · next failure heq =>
    rw [heq] at hw
    exact hw

theorem Rule.length_lt_of_read {mode : Mode} {text rest : List Char} {r : Rule}
    (h : (Rule.read mode text).reading = .ok (r, rest)) : rest.length < text.length := by
  unfold Rule.read Outcome.andThen at h
  dsimp only at h
  split at h
  · next selectors after heq =>
    have hw := (readBody_within mode after).map (f := fun declarations =>
      (⟨Selector.bySpecificity selectors, declarations⟩ : Rule))
    have h1 := length_lt_of_readSelectors heq
    simp only [Outcome.map] at h
    rw [h] at hw
    exact Nat.lt_of_le_of_lt (List.IsSuffix.length_le hw) h1
  · cases h

/-- The rules of a text, to its end. -/
def readRules (mode : Mode) (text : List Char) : Outcome (List Rule) :=
  match h : Text.skipBlanks text with
  | [] => ⟨[], .ok ([], [])⟩
  | c :: more =>
    match h' : (Rule.read mode (c :: more)).reading with
    | .error failure => ⟨(Rule.read mode (c :: more)).skipped, .error failure⟩
    | .ok (rule, rest) =>
      have : rest.length < text.length :=
        Text.length_lt_of_skipBlanks h (Rule.length_lt_of_read h')
      let others := (readRules mode rest).map (rule :: ·)
      ⟨(Rule.read mode (c :: more)).skipped ++ others.skipped, others.reading⟩
termination_by text.length

end BlockFlow
