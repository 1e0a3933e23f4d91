import BlockFlow.Sheet.Parse

/-! # Reading one text in several steps

A session remembers how far a text was read and what was passed over. Each step goes on from there,
to the end of the text or to a fault; after a fault the next step goes on where reading stopped.
-/

namespace BlockFlow

structure Session where
  mode : Mode
  source : List Char
  rest : List Char
  skipped : List Skipped

inductive SessionStep
  | rules
  | declarations
  deriving DecidableEq, Repr

inductive SessionAnswer
  | rules (rules : List Rule)
  | declarations (declarations : List (Declaration Float))
  | failed (error : SyntaxError)

namespace Session

def start (mode : Mode) (source : String) : Session :=
  ⟨mode, source.toList, source.toList, []⟩

def position (s : Session) : Nat := s.source.length - s.rest.length

def diagnostics (s : Session) : List Diagnostic := s.skipped.map (·.diagnostic s.source)

/-- The session after a reading, and the answer to it. -/
def advance {α : Type} (s : Session) (answer : α → SessionAnswer) (o : Outcome α) :
    SessionAnswer × Session :=
  let skipped := s.skipped ++ o.skipped
  match o.reading with
  | .ok (a, rest) => (answer a, { s with rest, skipped })
  | .error failure =>
    (.failed (.ofFailure s.source failure), { s with rest := failure.rest, skipped })

/-- The declarations that fill a text, unless a recovering reading of them never ends. -/
def declarationsOutcome? (mode : Mode) (text : List Char) :
    Option (Outcome (List (Declaration Float))) :=
  match mode with
  | .strict => some ⟨[], readDeclarations text⟩
  | .recovering => (recoverEntries? text).map fun entries =>
      ⟨skippedOf entries, .ok (declarationsOf entries, [])⟩

/-- One step; there is no answer to one that never ends. -/
def step? (s : Session) : SessionStep → Option (SessionAnswer × Session)
  | .rules => some (s.advance .rules (readRules s.mode s.rest))
  | .declarations => (declarationsOutcome? s.mode s.rest).map (s.advance .declarations)

end Session

end BlockFlow
