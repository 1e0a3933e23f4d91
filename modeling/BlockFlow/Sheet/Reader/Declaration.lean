import BlockFlow.Sheet.Reader.Value
import BlockFlow.Sheet.Rule

/-! # Reading declarations

Strictly, the first malformed declaration is a failure. A recovering reader passes over it instead:
from where it went wrong it goes on behind the next semicolon, or up to the next closing brace if
that comes first, and keeps a note of the fault.
-/

namespace BlockFlow

inductive Mode
  | strict
  | recovering
  deriving DecidableEq, Repr

/-- What follows the property of a declaration: a colon, a value and a semicolon, with blanks allowed
before each. -/
def Declaration.readAfter (name : String) (text : List Char) : Reading (Declaration Float) :=
  (readMark ':' (.missingColon name) (Text.skipBlanks text)).andThen fun _ rest =>
  (Value.read (Text.skipBlanks rest)).andThen fun value rest =>
  (readMark ';' (.missingSemicolon name) (Text.skipBlanks rest)).andThen fun _ rest =>
  .ok (⟨name, value⟩, rest)

/-- A declaration: a property and what follows it. -/
def Declaration.read (text : List Char) : Reading (Declaration Float) :=
  (readName .missingProperty text).andThen Declaration.readAfter

theorem Declaration.readAfter_within (name : String) (text : List Char) :
    (Declaration.readAfter name text).Within text := by
  refine .andThen ((readMark_within _ _ _).mono (Text.skipBlanks_suffix text)) fun _ rest _ => ?_
  refine .andThen ((Value.read_within _).mono (Text.skipBlanks_suffix rest)) fun _ rest _ => ?_
  refine .andThen ((readMark_within _ _ _).mono (Text.skipBlanks_suffix rest)) fun _ rest _ => ?_
  exact List.suffix_rfl

theorem Declaration.read_within (text : List Char) : (Declaration.read text).Within text :=
  .andThen (readName_within _ _) fun name rest _ => Declaration.readAfter_within name rest

theorem Declaration.length_lt_of_read {text rest : List Char} {d : Declaration Float}
    (h : Declaration.read text = .ok (d, rest)) : rest.length < text.length := by
  unfold Declaration.read at h
  cases hn : readName .missingProperty text with
  | error failure => simp [hn, Reading.andThen] at h
  | ok p =>
    have hw := Declaration.readAfter_within p.1 p.2
    rw [hn] at h
    simp only [Reading.andThen] at h
    rw [h] at hw
    exact Nat.lt_of_le_of_lt (List.IsSuffix.length_le hw) (length_lt_of_readName hn)

structure Skipped where
  fault : Fault
  position : List Char
  /-- The name at the start of the declaration; it may be empty. -/
  property : String
  deriving DecidableEq, Repr

inductive Entry
  | declaration (d : Declaration Float)
  | skipped (s : Skipped)
  deriving Repr

def isInsideDeclaration (c : Char) : Bool := c != ';' && c != '\x7d'

/-- The text behind the next semicolon, or from the next closing brace on if that comes first. -/
def skipDeclaration (text : List Char) : List Char :=
  match text.dropWhile isInsideDeclaration with
  | ';' :: rest => rest
  | rest => rest

/-- An entry, in recovering mode: there always is one. -/
def Entry.recover (text : List Char) : Entry × List Char :=
  match Declaration.read text with
  | .ok (d, rest) => (.declaration d, rest)
  | .error failure =>
    (.skipped ⟨failure.fault, failure.position, String.ofList (leadingName text)⟩,
      skipDeclaration failure.rest)

def Entry.read (mode : Mode) (text : List Char) : Reading Entry :=
  match mode with
  | .strict => (Declaration.read text).map .declaration
  | .recovering => .ok (Entry.recover text)

theorem skipDeclaration_suffix (text : List Char) : skipDeclaration text <:+ text := by
  have h : text.dropWhile isInsideDeclaration <:+ text := List.dropWhile_suffix _
  unfold skipDeclaration
  split
  · next heq =>
    rw [heq] at h
    exact (List.suffix_cons _ _).trans h
  · exact h

theorem Entry.recover_suffix (text : List Char) : (Entry.recover text).2 <:+ text := by
  have h := Declaration.read_within text
  unfold Entry.recover
  split
  · next heq => rwa [heq] at h
  · next failure heq =>
    rw [heq] at h
    exact (skipDeclaration_suffix _).trans (h.2.trans h.1)

theorem Entry.read_within (mode : Mode) (text : List Char) :
    (Entry.read mode text).Within text := by
  cases mode with
  | strict => exact (Declaration.read_within text).map
  | recovering => exact Entry.recover_suffix text

/-- Unless a closing brace stands first, an entry takes some text. -/
theorem length_skipDeclaration_lt {c : Char} (rest : List Char) (h : c ≠ '\x7d') :
    (skipDeclaration (c :: rest)).length < (c :: rest).length := by
  by_cases hc : c = ';'
  · subst hc
    simp [skipDeclaration, isInsideDeclaration]
  · have hin : isInsideDeclaration c = true := by simp [isInsideDeclaration, hc, h]
    have heq : skipDeclaration (c :: rest) = skipDeclaration rest := by
      simp [skipDeclaration, hin]
    have := (skipDeclaration_suffix rest).length_le
    rw [heq, List.length_cons]
    omega

theorem Entry.length_recover_lt {c : Char} (rest : List Char) (h : c ≠ '\x7d') :
    (Entry.recover (c :: rest)).2.length < (c :: rest).length := by
  have hw := Declaration.read_within (c :: rest)
  unfold Entry.recover
  split
  · next heq => exact Declaration.length_lt_of_read heq
  · next failure heq =>
    rw [heq] at hw
    have hs := hw.2.trans hw.1
    by_cases hlen : failure.rest.length = (c :: rest).length
    · rw [hs.eq_of_length hlen]
      exact length_skipDeclaration_lt rest h
    · have h1 := hs.length_le
      have h2 := (skipDeclaration_suffix failure.rest).length_le
      dsimp only
      omega

theorem Entry.length_lt_of_read {mode : Mode} {c : Char} {text rest : List Char} {e : Entry}
    (hc : c ≠ '\x7d') (h : Entry.read mode (c :: text) = .ok (e, rest)) :
    rest.length < (c :: text).length := by
  cases mode with
  | strict =>
    cases hd : Declaration.read (c :: text) with
    | error failure => simp [Entry.read, hd, Reading.map] at h
    | ok p =>
      obtain ⟨d, after⟩ := p
      simp only [Entry.read, hd, Reading.map, Except.ok.injEq, Prod.mk.injEq] at h
      exact h.2 ▸ Declaration.length_lt_of_read hd
  | recovering =>
    have := Entry.length_recover_lt text hc
    simp only [Entry.read, Except.ok.injEq] at h
    rwa [h] at this

/-- A list of declarations that fills a text, read strictly. -/
def readDeclarations (text : List Char) : Reading (List (Declaration Float)) :=
  match h : Text.skipBlanks text with
  | [] => .ok ([], [])
  | c :: more =>
    match h' : Declaration.read (c :: more) with
    | .error failure => .error failure
    | .ok (d, rest) =>
      have : rest.length < text.length :=
        Text.length_lt_of_skipBlanks h (Declaration.length_lt_of_read h')
      (readDeclarations rest).map (d :: ·)
termination_by text.length

/-- The entries of a list that fills a text, read in recovering mode. No entry takes a closing brace
that is not within one, so that reading would not come to an end before such a brace. -/
def recoverEntries? (text : List Char) : Option (List Entry) :=
  match h : Text.skipBlanks text with
  | [] => some []
  | c :: more =>
    if hc : c = '\x7d' then none
    else
      have : (Entry.recover (c :: more)).2.length < text.length :=
        Text.length_lt_of_skipBlanks h (Entry.length_recover_lt more hc)
      (recoverEntries? (Entry.recover (c :: more)).2).map ((Entry.recover (c :: more)).1 :: ·)
termination_by text.length

def declarationsOf (entries : List Entry) : List (Declaration Float) :=
  entries.filterMap fun
    | .declaration d => some d
    | .skipped _ => none

def skippedOf (entries : List Entry) : List Skipped :=
  entries.filterMap fun
    | .declaration _ => none
    | .skipped s => some s

end BlockFlow
