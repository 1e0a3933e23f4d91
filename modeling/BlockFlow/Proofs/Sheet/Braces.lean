import BlockFlow.Proofs.Sheet.Sessions

/-! # Declarations between braces

A list of declarations can stand alone or in the braces of a rule. Both are read by the same readers,
but one loop ends with the text and the other at the closing brace. What is cut off by the end of the
text is cut off by the brace in the same place; only where a value should begin are the two reported
in different words.
-/

namespace BlockFlow

open Grammar

/-! ## A closing brace behind a reading -/

/-- What is wrong when a closing brace stands where the text would have ended. -/
def Fault.closed : Fault → Fault
  | endOfInput => missingValue
  | fault => fault

def Failure.close (failure : Failure) : Failure :=
  ⟨failure.fault.closed, failure.position ++ ['\x7d'], failure.rest ++ ['\x7d']⟩

theorem Failure.close_here {fault : Fault} (h : fault.closed = fault) (text : List Char) :
    (here fault text).close = here fault (text ++ ['\x7d']) := by
  rw [close, here, h]
  rfl

namespace Reading

variable {α β : Type}

def close : Reading α → Reading α
  | .ok (a, rest) => .ok (a, rest ++ ['\x7d'])
  | .error failure => .error failure.close

theorem close_map (f : α → β) (r : Reading α) : (r.map f).close = r.close.map f := by
  cases r <;> rfl

theorem close_andThen {r r' : Reading α} {k : α → List Char → Reading β} (h : r' = r.close)
    (hk : ∀ a rest, k a (rest ++ ['\x7d']) = (k a rest).close) :
    r'.andThen k = (r.andThen k).close := by
  subst h
  cases r with
  | ok p => exact hk p.1 p.2
  | error failure => rfl

end Reading

theorem skipBlanks_brace (text : List Char) :
    Text.skipBlanks (text ++ ['\x7d']) = Text.skipBlanks text ++ ['\x7d'] :=
  dropWhile_concat (by decide) text

theorem readName_brace {missing : Fault} (h : missing.closed = missing) (text : List Char) :
    readName missing (text ++ ['\x7d']) = (readName missing text).close := by
  have hLeading : leadingName (text ++ ['\x7d']) = leadingName text := takeWhile_concat rfl text
  have hAfter : afterName (text ++ ['\x7d']) = afterName text ++ ['\x7d'] := dropWhile_concat rfl text
  unfold readName
  rw [hLeading, hAfter]
  split
  · exact congrArg Except.error (Failure.close_here h text).symm
  · rfl

theorem readMark_brace {mark : Char} {missing : Fault} (hMark : mark ≠ '\x7d')
    (h : missing.closed = missing) (text : List Char) :
    readMark mark missing (text ++ ['\x7d']) = (readMark mark missing text).close := by
  cases text with
  | nil =>
    rw [List.nil_append, readMark, if_neg hMark.symm]
    exact congrArg Except.error (Failure.close_here h []).symm
  | cons c rest =>
    rw [List.cons_append, readMark, readMark]
    split
    · rfl
    · exact congrArg Except.error (Failure.close_here h (c :: rest)).symm

theorem readLength_brace (text : List Char) :
    readLength (text ++ ['\x7d']) = (readLength text).close := by
  have hBrace : isNumberChar '\x7d' = false := rfl
  have hNumber := takeWhile_concat hBrace text
  have hAfterNumber := dropWhile_concat hBrace text
  have hUnit : leadingName (text.dropWhile isNumberChar ++ ['\x7d']) =
      leadingName (text.dropWhile isNumberChar) := takeWhile_concat rfl _
  have hAfterUnit : afterName (text.dropWhile isNumberChar ++ ['\x7d']) =
      afterName (text.dropWhile isNumberChar) ++ ['\x7d'] := dropWhile_concat rfl _
  unfold readLength
  dsimp only
  rw [hNumber, hAfterNumber, hUnit, hAfterUnit]
  split
  · rfl
  · split
    · rfl
    · rfl

/-- What is read without a brace is read from what stands before it. -/
theorem split_of_inside {text read rest' : List Char} (hRead : '\x7d' ∉ read)
    (h : text ++ ['\x7d'] = read ++ rest') :
    ∃ rest, text = read ++ rest ∧ rest' = rest ++ ['\x7d'] := by
  rcases List.eq_nil_or_concat rest' with rfl | ⟨rest, last, rfl⟩
  · rw [List.append_nil] at h
    exact absurd (h ▸ List.mem_append_right text List.mem_cons_self) hRead
  · rw [List.concat_eq_append, ← List.append_assoc] at h
    obtain ⟨rfl, hLast⟩ := List.append_inj' h rfl
    exact ⟨rest, rfl, by rw [List.concat_eq_append, ← hLast]⟩

theorem Inside.not_mem_brace {text : List Char} (h : Inside text) : '\x7d' ∉ text := by
  intro hBrace
  cases h _ hBrace

theorem readColor_brace (text : List Char) :
    readColor (text ++ ['\x7d']) = (readColor text).close := by
  rw [readColor_append_of_split fun hRead hText => split_of_inside hRead.not_mem_brace hText]
  unfold readColor
  split
  · rfl
  · rfl

theorem Value.read_brace (text : List Char) :
    Value.read (text ++ ['\x7d']) = (Value.read text).close := by
  cases text with
  | nil => rfl
  | cons c rest =>
    rw [List.cons_append, Value.read, Value.read, ← List.cons_append]
    split
    · exact readLength_brace _
    · split
      · exact readColor_brace rest
      · rw [readName_brace rfl, Reading.close_map]

theorem Declaration.read_brace (text : List Char) :
    Declaration.read (text ++ ['\x7d']) = (Declaration.read text).close := by
  refine Reading.close_andThen (readName_brace rfl text) fun name rest => ?_
  rw [Declaration.readAfter, Declaration.readAfter, skipBlanks_brace]
  refine Reading.close_andThen (readMark_brace (by decide) rfl _) fun _ rest => ?_
  rw [skipBlanks_brace]
  refine Reading.close_andThen (Value.read_brace _) fun value rest => ?_
  rw [skipBlanks_brace]
  exact Reading.close_andThen (readMark_brace (by decide) rfl _) fun _ rest => rfl

/-! ## A closing brace behind the last declaration -/

/-- What reading the body of a rule comes to, if this is what the text in it comes to alone. -/
def Reading.enclosed {α : Type} : Reading α → Reading α
  | .ok (a, _) => .ok (a, [])
  | .error failure => .error failure.close

theorem Reading.enclosed_map {α β : Type} (f : α → β) (r : Reading α) :
    (r.map f).enclosed = r.enclosed.map f := by
  cases r <;> rfl

def Skipped.close (s : Skipped) : Skipped :=
  { s with fault := s.fault.closed, position := s.position ++ ['\x7d'] }

def Entry.close : Entry → Entry
  | .declaration d => .declaration d
  | .skipped s => .skipped s.close

theorem skipDeclaration_brace (text : List Char) :
    skipDeclaration (text ++ ['\x7d']) = skipDeclaration text ++ ['\x7d'] := by
  unfold skipDeclaration
  rw [dropWhile_concat rfl text]
  cases text.dropWhile isInsideDeclaration with
  | nil => rfl
  | cons d rest =>
    by_cases hd : d = ';'
    · subst hd
      rfl
    · rw [List.cons_append]
      split
      · next hCons => exact absurd (List.cons.inj hCons).1 hd
      · split
        · next hCons => exact absurd (List.cons.inj hCons).1 hd
        · rfl

theorem Entry.recover_brace (text : List Char) :
    Entry.recover (text ++ ['\x7d']) =
      ((Entry.recover text).1.close, (Entry.recover text).2 ++ ['\x7d']) := by
  have hRead := Declaration.read_brace text
  cases hDeclaration : Declaration.read text with
  | ok p =>
    rw [hDeclaration] at hRead
    rw [Entry.recover, hRead, Entry.recover, hDeclaration]
    rfl
  | error failure =>
    rw [hDeclaration] at hRead
    have hLeading : leadingName (text ++ ['\x7d']) = leadingName text := takeWhile_concat rfl text
    rw [Entry.recover_of_failure hRead, Entry.recover_of_failure hDeclaration,
      skipDeclaration_brace, hLeading]
    rfl

theorem readBody_strict_of_read {text more : List Char} {c : Char} (h : '\x7d' ∉ text)
    (hSkip : Text.skipBlanks text = c :: more) :
    readBody .strict (text ++ ['\x7d']) = match Declaration.read (c :: more) with
      | .ok (d, rest) => (readBody .strict (rest ++ ['\x7d'])).map (d :: ·)
      | .error failure => ⟨[], .error failure.close⟩ := by
  have hText : c :: more <:+ text := Text.suffix_of_skipBlanks hSkip
  have hBrace : c ≠ '\x7d' := by
    rintro rfl
    exact h (hText.mem List.mem_cons_self)
  rw [readBody_eq, skipBlanks_brace, hSkip, List.cons_append]
  dsimp only
  rw [if_neg hBrace, ← List.cons_append, Entry.read, Declaration.read_brace]
  cases Declaration.read (c :: more) <;> rfl

theorem readBody_strict_brace {text : List Char} (h : '\x7d' ∉ text) :
    readBody .strict (text ++ ['\x7d']) = ⟨[], (readDeclarations text).enclosed⟩ := by
  fun_induction readDeclarations text with
  | case1 text hSkip =>
    rw [readBody_eq, skipBlanks_brace, hSkip]
    rfl
  | case2 text c more hSkip failure hRead =>
    rw [readBody_strict_of_read h hSkip, hRead]
    rfl
  | case3 text c more hSkip d after hRead _ ih =>
    have hAfter : after <:+ text := by
      have hWithin := Declaration.read_within (c :: more)
      rw [hRead] at hWithin
      exact List.IsSuffix.trans hWithin (Text.suffix_of_skipBlanks hSkip)
    rw [readBody_strict_of_read h hSkip, hRead]
    dsimp only
    rw [ih fun hBrace => h (hAfter.mem hBrace), Reading.enclosed_map]
    rfl

theorem readBody_recovering_brace {text : List Char} {entries : List Entry}
    (h : recoverEntries? text = some entries) :
    readBody .recovering (text ++ ['\x7d']) =
      ⟨(skippedOf entries).map Skipped.close, .ok (declarationsOf entries, [])⟩ := by
  fun_induction recoverEntries? text generalizing entries with
  | case1 text hSkip =>
    obtain rfl := Option.some.inj h
    rw [readBody_eq, skipBlanks_brace, hSkip]
    rfl
  | case2 => cases h
  | case3 text c more hSkip hBrace hLess ih =>
    obtain ⟨others, hOthers, rfl⟩ := Option.map_eq_some_iff.mp h
    rw [readBody_eq, skipBlanks_brace, hSkip, List.cons_append]
    dsimp only
    rw [if_neg hBrace, ← List.cons_append, Entry.read, Entry.recover_brace]
    dsimp only
    rw [ih hOthers]
    cases (Entry.recover (c :: more)).1 with
    | declaration d => rfl
    | skipped s => rfl

/-! ## A brace among the declarations -/

theorem Grammar.IsDeclaration.not_mem_brace {text : List Char} {d : Declaration Float}
    (h : IsDeclaration text d) : '\x7d' ∉ text := by
  obtain ⟨inside, rfl, hInside⟩ := h.exists_inside
  simp [hInside.not_mem_brace]

theorem Entry.exists_read {mode : Mode} {text rest : List Char} {entry : Entry}
    (h : Entry.read mode text = .ok (entry, rest)) :
    ∃ read, text = read ++ rest ∧ '\x7d' ∉ read := by
  cases mode with
  | strict =>
    obtain ⟨d, hDeclaration, -⟩ := Reading.map_eq_ok_iff.mp h
    obtain ⟨read, hText, hRead⟩ := Declaration.read_eq_ok_iff.mp hDeclaration
    exact ⟨read, hText, hRead.not_mem_brace⟩
  | recovering =>
    have hRest : (Entry.recover text).2 = rest := congrArg Prod.snd (Except.ok.inj h)
    obtain ⟨read, hText, hRead⟩ := stretch_skipDeclaration text
    rw [← Entry.snd_recover, hRest] at hText
    refine ⟨read, hText, ?_⟩
    cases hRead with
    | semicolon hInside => simp [hInside.not_mem_brace]
    | brace hInside _ => exact hInside.not_mem_brace

theorem Grammar.Spaced.not_mem_brace {text : List Char} {ds : List (Declaration Float)}
    (h : Spaced IsDeclaration text ds) : '\x7d' ∉ text := by
  induction h with
  | nil => exact List.not_mem_nil
  | cons hText hBlanks _ ih => simp [hText.not_mem_brace, hBlanks.inside.not_mem_brace, ih]

theorem not_mem_brace_of_readDeclarations {text rest : List Char} {ds : List (Declaration Float)}
    (h : readDeclarations text = .ok (ds, rest)) : '\x7d' ∉ text := by
  fun_induction readDeclarations text generalizing ds with
  | case1 text hSkip =>
    obtain ⟨⟨blanks, rfl, hBlanks⟩, -⟩ := skipBlanks_eq_iff.mp hSkip
    simpa using Blanks.inside hBlanks |>.not_mem_brace
  | case2 text c more hSkip failure hRead => cases h
  | case3 text c more hSkip d after hRead _ ih =>
    obtain ⟨others, hOthers, -⟩ := Reading.map_eq_ok_iff.mp h
    obtain ⟨read, hText, hDeclaration⟩ := Declaration.read_eq_ok_iff.mp hRead
    obtain ⟨⟨blanks, rfl, hBlanks⟩, -⟩ := skipBlanks_eq_iff.mp hSkip
    rw [hText]
    simp [Blanks.inside hBlanks |>.not_mem_brace, hDeclaration.not_mem_brace, ih hOthers]

/-- The rule for every element with the declarations in a text. -/
def enclose (b : List Char) : List Char := '\x7b' :: (b ++ ['\x7d'])

/-- A rule whose only selector has no parts. -/
def Rule.ofDeclarations (ds : List (Declaration Float)) : Rule :=
  ⟨Selector.bySpecificity [Selector.ofParts []], ds⟩

theorem readRules_enclose (mode : Mode) (b : List Char) :
    readRules mode (enclose b) = ((readBody mode (b ++ ['\x7d'])).map Rule.ofDeclarations).andThen
      fun rule rest => (readRules mode rest).map (rule :: ·) := by
  have hGroup : Group ([] ++ []) [Selector.ofParts []] ['\x7b'] :=
    .last .nil (names_iff.mpr rfl) .nil
  exact readRules_of_group mode .nil hGroup (b ++ ['\x7d'])

theorem readRules_enclose_of_body {mode : Mode} {b : List Char} {noted : List Skipped}
    {r : Reading (List (Declaration Float))}
    (h : readBody mode (b ++ ['\x7d']) = ⟨noted, r.enclosed⟩) :
    readRules mode (enclose b) = ⟨noted, r.enclosed.map fun ds => [.ofDeclarations ds]⟩ := by
  rw [readRules_enclose, h]
  cases r with
  | ok p =>
    simp only [Reading.enclosed, Outcome.map, Reading.map, Outcome.andThen, readRules_nil,
      List.append_nil]
  | error failure => rfl

/-- A brace in the text ends the rule, and what follows it is no rule or another one. -/
theorem not_mem_brace_of_readRules {b rest : List Char} {rule : Rule}
    (h : (readRules .strict (enclose b)).reading = .ok ([rule], rest)) : '\x7d' ∉ b := by
  rw [readRules_enclose] at h
  rcases hBody : readBody .strict (b ++ ['\x7d']) with ⟨skipped, reading⟩
  cases reading with
  | error failure =>
    rw [hBody] at h
    cases h
  | ok p =>
    obtain ⟨ds, left⟩ := p
    rw [hBody] at h
    obtain ⟨others, hOthers, hCons⟩ := Reading.map_eq_ok_iff.mp h
    obtain rfl : [] = others := (List.cons.inj hCons).2
    obtain ⟨-, blanks', more, rfl, hBlanks', hMore⟩ := sheet_of_readRules hOthers
    cases hMore
    obtain ⟨blanks, body, hText, hBlanks, hSpaced⟩ :=
      declarations_of_readBody (congrArg Outcome.reading hBody)
    have hRead : '\x7d' ∉ blanks ++ body := by
      simp [hBlanks.inside.not_mem_brace, hSpaced.not_mem_brace]
    rw [← List.append_assoc] at hText
    obtain ⟨behind, rfl, hBehind⟩ := split_of_inside hRead hText
    cases behind with
    | nil => simpa using hRead
    | cons c behind =>
      obtain ⟨-, hLeft⟩ := List.cons.inj hBehind
      have hBrace : '\x7d' ∈ blanks' ++ [] := hLeft ▸ List.mem_append_right _ List.mem_cons_self
      rw [List.append_nil] at hBrace
      exact absurd hBrace hBlanks'.inside.not_mem_brace

/-! ## The same places -/

/-- The place that a place in a text becomes when the text is enclosed in braces. -/
def Text.Place.Enclosed (b : List Char) (p p' : Place) : Prop :=
  ∃ n ≤ b.length, p = after (b.take n) ∧ p' = after ((enclose b).take (n + 1))

theorem Text.Place.enclosed_within {b position : List Char} (h : position <:+ b) :
    (within b position).Enclosed b (within (enclose b) (position ++ ['\x7d'])) := by
  have hLe : b.length - position.length ≤ b.length := Nat.sub_le _ _
  have hLe' : b.length - position.length + 1 ≤ (['\x7b'] ++ b).length := by simp
  have hEnclose : enclose b = (['\x7b'] ++ b) ++ ['\x7d'] := rfl
  refine ⟨b.length - position.length, hLe, rfl, ?_⟩
  rw [hEnclose, within_append_right, within_append_left h, List.take_append_of_le_length hLe',
    Nat.add_comm]
  rfl

/-- The same fault of a declaration, or one that says that a value is missing instead of the end of
the text. -/
structure SyntaxError.Enclosed (b : List Char) (e e' : SyntaxError) : Prop where
  fault : e'.fault = e.fault.closed
  place : e.place.Enclosed b e'.place

structure Diagnostic.Enclosed (b : List Char) (d d' : Diagnostic) : Prop where
  severity : d'.severity = d.severity
  property : d'.property = d.property
  message : ∃ fault : Fault, d.message = "Skipped malformed declaration: " ++ fault.message ∧
    d'.message = "Skipped malformed declaration: " ++ fault.closed.message
  place : ∃ p p' : Text.Place, p.Enclosed b p' ∧ d.location = p.location ∧ d'.location = p'.location

/-- What comes of a list of declarations and of the one rule that it is enclosed in. -/
inductive EnclosedResult (b : List Char) :
    Except SyntaxError (List (Declaration Float)) → Except SyntaxError Stylesheet → Prop
  | ok (rule : Rule) : EnclosedResult b (.ok rule.declarations) (.ok ⟨[rule]⟩)
  | error {e e'} : e.Enclosed b e' → EnclosedResult b (.error e) (.error e')

theorem EnclosedResult.eq_ok_iff {b : List Char} {list : Except SyntaxError (List (Declaration Float))}
    {sheet : Except SyntaxError Stylesheet} (h : EnclosedResult b list sheet)
    {ds : List (Declaration Float)} :
    list = .ok ds ↔ ∃ r, sheet = .ok ⟨[r]⟩ ∧ r.declarations = ds := by
  cases h with
  | ok rule =>
    constructor
    · intro hList
      exact ⟨rule, rfl, Except.ok.inj hList⟩
    · rintro ⟨r, hSheet, rfl⟩
      cases hSheet
      rfl
  | error hError =>
    constructor
    · intro hList
      cases hList
    · rintro ⟨r, hSheet, -⟩
      cases hSheet

theorem Skipped.diagnostic_close {b : List Char} {s : Skipped} (h : s.position <:+ b) :
    (s.diagnostic b).Enclosed b (s.close.diagnostic (enclose b)) where
  severity := rfl
  property := rfl
  message := ⟨s.fault, rfl, rfl⟩
  place := ⟨_, _, Text.Place.enclosed_within h, rfl, rfl⟩

/-! ## Both texts as a whole -/

def inBraces (b : String) : String := "\x7b" ++ b ++ "\x7d"

theorem toList_inBraces (b : String) : (inBraces b).toList = enclose b.toList := by
  simp [inBraces, enclose]

theorem rejected_of_brace {b : String} (h : '\x7d' ∈ b.toList) :
    (∀ ds, Declaration.parseList b ≠ .ok ds) ∧
      ∀ r, (Stylesheet.parse .strict (inBraces b)).result ≠ .ok ⟨[r]⟩ := by
  constructor
  · intro ds hParse
    obtain ⟨rest, hRead⟩ := Reading.result_eq_ok_iff.mp hParse
    exact not_mem_brace_of_readDeclarations hRead h
  · intro r hParse
    have hRead := result_parse_eq_ok_iff.mp hParse
    rw [toList_inBraces] at hRead
    exact not_mem_brace_of_readRules hRead h

theorem parseList_enclosed {b : String} (h : '\x7d' ∉ b.toList) :
    EnclosedResult b.toList (Declaration.parseList b)
      (Stylesheet.parse .strict (inBraces b)).result := by
  have hWithin := readDeclarations_within b.toList
  rw [Stylesheet.parse, toList_inBraces, readRules_enclose_of_body (readBody_strict_brace h),
    Declaration.parseList]
  cases hRead : readDeclarations b.toList with
  | ok p => exact .ok (.ofDeclarations p.1)
  | error failure =>
    rw [hRead] at hWithin
    exact .error ⟨rfl, Text.Place.enclosed_within hWithin.1⟩

theorem recovering_enclosed {b : String} (h : '\x7d' ∉ b.toList) :
    ∃ s r, (Session.start .recovering b).step? .declarations =
        some (.declarations r.declarations, s) ∧
      (Stylesheet.parse .recovering (inBraces b)).result = .ok ⟨[r]⟩ ∧
      List.Forall₂ (Diagnostic.Enclosed b.toList) s.diagnostics
        (Stylesheet.parse .recovering (inBraces b)).diagnostics := by
  obtain ⟨entries, hEntries⟩ := exists_recoverEntries? h
  have hOutcome : Session.declarationsOutcome? .recovering b.toList =
      some ⟨skippedOf entries, .ok (declarationsOf entries, [])⟩ := by
    rw [Session.declarationsOutcome?, hEntries]
    rfl
  have hStep : (Session.start .recovering b).step? .declarations =
      some (.declarations (declarationsOf entries),
        { Session.start .recovering b with rest := [], skipped := skippedOf entries }) :=
    congrArg (Option.map ((Session.start .recovering b).advance .declarations)) hOutcome
  have hRead := readRules_enclose_of_body (r := .ok (declarationsOf entries, []))
    (readBody_recovering_brace hEntries)
  refine ⟨_, .ofDeclarations (declarationsOf entries), hStep, ?_, ?_⟩
  · rw [Stylesheet.parse, toList_inBraces, hRead]
    rfl
  · rw [Stylesheet.parse, toList_inBraces, hRead, Session.diagnostics, List.map_map,
      List.forall₂_map_left_iff, List.forall₂_map_right_iff, List.forall₂_same]
    exact fun x hx => Skipped.diagnostic_close (suffix_of_mem_recoverEntries? hEntries x hx)

/-- A text is a list of declarations exactly if it is one rule when it is put in braces, and then the
rule has just these declarations; a text with a closing brace in it is neither. Without one, an error
is in the same place of both, and a recovering reader passes over the same declarations of both. -/
theorem declarations_enclosed (b : String) :
    (∀ ds, Declaration.parseList b = .ok ds ↔
      ∃ r, (Stylesheet.parse .strict (inBraces b)).result = .ok ⟨[r]⟩ ∧ r.declarations = ds) ∧
    ('\x7d' ∈ b.toList → (∀ ds, Declaration.parseList b ≠ .ok ds) ∧
      ∀ r, (Stylesheet.parse .strict (inBraces b)).result ≠ .ok ⟨[r]⟩) ∧
    ('\x7d' ∉ b.toList →
      EnclosedResult b.toList (Declaration.parseList b)
        (Stylesheet.parse .strict (inBraces b)).result ∧
      ∃ s r, (Session.start .recovering b).step? .declarations =
          some (.declarations r.declarations, s) ∧
        (Stylesheet.parse .recovering (inBraces b)).result = .ok ⟨[r]⟩ ∧
        List.Forall₂ (Diagnostic.Enclosed b.toList) s.diagnostics
          (Stylesheet.parse .recovering (inBraces b)).diagnostics) := by
  refine ⟨fun ds => ?_, rejected_of_brace, fun h => ⟨parseList_enclosed h, recovering_enclosed h⟩⟩
  by_cases hBrace : '\x7d' ∈ b.toList
  · obtain ⟨hList, hOne⟩ := rejected_of_brace hBrace
    exact ⟨fun h => absurd h (hList ds), fun ⟨r, h, _⟩ => absurd h (hOne r)⟩
  · exact (parseList_enclosed hBrace).eq_ok_iff

end BlockFlow
