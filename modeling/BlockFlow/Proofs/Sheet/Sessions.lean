import BlockFlow.Proofs.Sheet.Concatenation
import BlockFlow.Sheet.Session

/-! # Sessions go on as from the start

A session that has got somewhere does what one does that starts there, on the text that is left, but
that it counts lines and columns from the start of the whole text. So nothing that was read before a
step, and no fault in it, changes what the step comes to.
-/

namespace BlockFlow

/-! ## What comes of a text -/

/-- An outcome of reading a text to its end: nothing but the text is pointed at, and strictly nothing
is passed over. -/
structure Outcome.Filling {α : Type} (mode : Mode) (text : List Char) (o : Outcome α) : Prop where
  within : o.reading.Within text
  skipped : ∀ x ∈ o.skipped, x.position <:+ text
  strict : mode = .strict → o.skipped = []
  ended : ∀ {a rest}, o.reading = .ok (a, rest) → rest = []

theorem skipped_readBody_strict (text : List Char) : (readBody .strict text).skipped = [] := by
  fun_induction readBody .strict text with
  | case1 => rfl
  | case2 => rfl
  | case3 => rfl
  | case4 text c more hSkip hBrace entry after hRead _ ih =>
    obtain ⟨d, -, rfl⟩ := Reading.map_eq_ok_iff.mp hRead
    exact ih

theorem skipped_readRule_strict (text : List Char) : (Rule.read .strict text).skipped = [] := by
  cases hSelectors : readSelectors text with
  | error failure => rw [Rule.read, hSelectors]; rfl
  | ok p =>
    rw [Rule.read_of_selectors hSelectors]
    exact skipped_readBody_strict p.2

theorem skipped_readRules_strict (text : List Char) : (readRules .strict text).skipped = [] := by
  fun_induction readRules .strict text with
  | case1 => rfl
  | case2 => exact skipped_readRule_strict _
  | case3 text c more hSkip rule after hRead _ others ih =>
    exact List.append_eq_nil_iff.mpr ⟨skipped_readRule_strict _, ih⟩

theorem readRules_nil (mode : Mode) : readRules mode [] = ⟨[], .ok ([], [])⟩ := by
  rw [readRules_eq]
  rfl

theorem rest_of_readRules {mode : Mode} {text : List Char} :
    ∀ {rules rest}, (readRules mode text).reading = .ok (rules, rest) → rest = [] := by
  fun_induction readRules mode text with
  | case1 =>
    intro rules rest h
    exact (Prod.mk.inj (Except.ok.inj h)).2.symm
  | case2 =>
    intro rules rest h
    cases h
  | case3 text c more hSkip rule after hRead _ _ =>
    rename_i ih
    intro rules rest h
    obtain ⟨_, hOthers, -⟩ := Reading.map_eq_ok_iff.mp h
    exact ih hOthers

theorem rest_of_readDeclarations {text rest : List Char} {ds : List (Declaration Float)}
    (h : readDeclarations text = .ok (ds, rest)) : rest = [] := by
  fun_induction readDeclarations text generalizing ds with
  | case1 => exact (Prod.mk.inj (Except.ok.inj h)).2.symm
  | case2 => cases h
  | case3 text c more hSkip d after hRead _ ih =>
    obtain ⟨_, hOthers, -⟩ := Reading.map_eq_ok_iff.mp h
    exact ih hOthers

theorem Outcome.filling_readRules (mode : Mode) (text : List Char) :
    (readRules mode text).Filling mode text where
  within := readRules_within mode text
  skipped := suffix_of_mem_readRules
  strict := by
    rintro rfl
    exact skipped_readRules_strict text
  ended := rest_of_readRules

theorem suffix_of_mem_recoverEntries? {text : List Char} {entries : List Entry}
    (h : recoverEntries? text = some entries) : ∀ x ∈ skippedOf entries, x.position <:+ text := by
  fun_induction recoverEntries? text generalizing entries with
  | case1 =>
    cases h
    exact List.forall_mem_nil _
  | case2 => cases h
  | case3 text c more hSkip hBrace hLess ih =>
    have hText : c :: more <:+ text := Text.suffix_of_skipBlanks hSkip
    have hRead : Entry.read .recovering (c :: more) =
        .ok ((Entry.recover (c :: more)).1, (Entry.recover (c :: more)).2) := rfl
    obtain ⟨others, hOthers, rfl⟩ := Option.map_eq_some_iff.mp h
    have hRest : ∀ x ∈ skippedOf others, x.position <:+ text := fun x hx =>
      (ih hOthers x hx).trans ((Entry.recover_suffix _).trans hText)
    cases hEntry : (Entry.recover (c :: more)).1 with
    | declaration d => exact hRest
    | skipped first =>
      rw [hEntry] at hRead
      exact List.forall_mem_cons.mpr ⟨(Entry.suffix_of_skipped hRead).trans hText, hRest⟩

/-- Only a closing brace keeps a recovering reading of declarations from coming to an end. -/
theorem exists_recoverEntries? {text : List Char} (h : '\x7d' ∉ text) :
    ∃ entries, recoverEntries? text = some entries := by
  fun_induction recoverEntries? text with
  | case1 => exact ⟨[], rfl⟩
  | case2 text more hSkip =>
    have hBrace : '\x7d' :: more <:+ text := Text.suffix_of_skipBlanks hSkip
    exact absurd (hBrace.mem List.mem_cons_self) h
  | case3 text c more hSkip hBrace hLess ih =>
    have hText : c :: more <:+ text := Text.suffix_of_skipBlanks hSkip
    obtain ⟨entries, hEntries⟩ := ih fun hMem => h (((Entry.recover_suffix _).trans hText).mem hMem)
    exact ⟨_, congrArg _ hEntries⟩

theorem Outcome.filling_declarations {mode : Mode} {text : List Char}
    {o : Outcome (List (Declaration Float))}
    (h : Session.declarationsOutcome? mode text = some o) : o.Filling mode text := by
  cases mode with
  | strict =>
    obtain rfl := Option.some.inj h
    exact ⟨readDeclarations_within text, List.forall_mem_nil _, fun _ => rfl,
      rest_of_readDeclarations⟩
  | recovering =>
    obtain ⟨entries, hEntries, rfl⟩ := Option.map_eq_some_iff.mp h
    refine ⟨List.nil_suffix, suffix_of_mem_recoverEntries? hEntries, nofun, fun hRead => ?_⟩
    exact (Prod.mk.inj (Except.ok.inj hRead)).2.symm

namespace Session

/-- Some steps, each of which comes to an end. -/
inductive Leads : Session → Session → Prop
  | refl (s) : Leads s s
  | step {s t u k a} : Leads s t → t.step? k = some (a, u) → Leads s u

/-- A recovering reading of declarations is only asked for where nothing closes a rule. -/
def Allows (s : Session) (k : SessionStep) : Prop :=
  k = .declarations → s.mode = .recovering → '\x7d' ∉ s.rest

/-- A session that starts where another has got to. -/
def fresh (s : Session) : Session := start s.mode (String.ofList s.rest)

end Session

def SessionAnswer.error? : SessionAnswer → Option SyntaxError
  | failed error => some error
  | _ => none

/-- The same answer behind another text. -/
inductive SessionAnswer.Moved (first second : List Char) : SessionAnswer → SessionAnswer → Prop
  | same {a} : a.error? = none → Moved first second a a
  | failed {e moved} : e.Moved first second moved → Moved first second (.failed e) (.failed moved)

/-- The answer to a step where there is nothing left to read. -/
def SessionStep.nothing : SessionStep → SessionAnswer
  | rules => .rules []
  | declarations => .declarations []

namespace Session

/-- A step of a session and the same step of one that starts where it has got to: the answers and
what is noted differ in their places, and in nothing else. -/
structure LikeFresh (s : Session) (result fresh : SessionAnswer × Session) : Prop where
  answer : fresh.1.Moved (s.source.take s.position) s.rest result.1
  position : result.2.position = s.position + fresh.2.position
  diagnostics : ∃ moved, result.2.diagnostics = s.diagnostics ++ moved ∧
    List.Forall₂ (Diagnostic.Moved (s.source.take s.position) s.rest) fresh.2.diagnostics moved

variable {s t u : Session} {α : Type} {o : Outcome α} {answer : α → SessionAnswer}

theorem take_position (h : s.rest <:+ s.source) :
    s.source.take s.position ++ s.rest = s.source := by
  obtain ⟨before, hSource⟩ := h
  rw [position, ← hSource, List.length_append, Nat.add_sub_cancel, List.take_left]

theorem position_of_append {mode : Mode} {before rest : List Char} {skipped : List Skipped} :
    position ⟨mode, before ++ rest, rest, skipped⟩ = before.length := by
  rw [position, List.length_append, Nat.add_sub_cancel]

/-! ## One step -/

theorem likeFresh_advance (h : s.rest <:+ s.source) (ho : o.Filling s.mode s.rest)
    (hAnswer : ∀ a, (answer a).error? = none) :
    s.LikeFresh (s.advance answer o) (s.fresh.advance answer o) := by
  obtain ⟨mode, source, rest, skipped⟩ := s
  obtain ⟨before, hSource⟩ := h
  obtain ⟨noted, reading⟩ := o
  dsimp only at hSource ho
  subst hSource
  have hFresh : fresh ⟨mode, before ++ rest, rest, skipped⟩ = ⟨mode, rest, rest, []⟩ := by
    rw [fresh, start, String.toList_ofList]
  have hLeft {left : List Char} (hLeft : left <:+ rest) : (before ++ rest).length - left.length =
      before.length + (rest.length - left.length) := by
    rw [List.length_append, Nat.add_sub_assoc hLeft.length_le]
  have hNoted : List.Forall₂ (Diagnostic.Moved before rest) (noted.map (·.diagnostic rest))
      (noted.map (·.diagnostic (before ++ rest))) := by
    rw [List.forall₂_map_left_iff, List.forall₂_map_right_iff, List.forall₂_same]
    exact fun x hx => Skipped.diagnostic_moved (ho.skipped x hx) before
  have hWithin := ho.within
  rw [hFresh]
  constructor
  · dsimp only
    rw [position_of_append, List.take_left]
    cases reading with
    | ok p => exact .same (hAnswer p.1)
    | error failure => exact .failed (SyntaxError.moved_ofFailure hWithin.1 before)
  · rw [position_of_append]
    cases reading with
    | ok p => exact hLeft hWithin
    | error failure => exact hLeft (hWithin.2.trans hWithin.1)
  · dsimp only
    rw [position_of_append, List.take_left]
    cases reading with
    | ok p => exact ⟨_, List.map_append, hNoted⟩
    | error failure => exact ⟨_, List.map_append, hNoted⟩

/-- A step reads the text that is left, to its end or to a fault. -/
theorem exists_advance {k : SessionStep} {a : SessionAnswer} (h : s.step? k = some (a, u)) :
    ∃ (α : Type) (answer : α → SessionAnswer) (o : Outcome α), (∀ x, (answer x).error? = none) ∧
      o.Filling s.mode s.rest ∧ a = (s.advance answer o).1 ∧ u = (s.advance answer o).2 := by
  cases k with
  | rules =>
    have hAdvance := Option.some.inj h
    exact ⟨_, .rules, _, fun _ => rfl, Outcome.filling_readRules _ _, hAdvance ▸ rfl, hAdvance ▸ rfl⟩
  | declarations =>
    obtain ⟨o, hOutcome, hAdvance⟩ := Option.map_eq_some_iff.mp h
    exact ⟨_, .declarations, o, fun _ => rfl, Outcome.filling_declarations hOutcome,
      hAdvance ▸ rfl, hAdvance ▸ rfl⟩

theorem exists_step {k : SessionStep} (h : s.rest <:+ s.source) (hk : s.Allows k) :
    ∃ result fresh, s.step? k = some result ∧ s.fresh.step? k = some fresh ∧
      s.LikeFresh result fresh := by
  have hMode : s.fresh.mode = s.mode := rfl
  have hRest : s.fresh.rest = s.rest := String.toList_ofList
  cases k with
  | rules =>
    refine ⟨_, _, rfl, rfl, ?_⟩
    rw [hMode, hRest]
    exact likeFresh_advance h (Outcome.filling_readRules _ _) fun _ => rfl
  | declarations =>
    have hOutcome : ∃ o, declarationsOutcome? s.mode s.rest = some o := by
      cases hs : s.mode with
      | strict => exact ⟨_, rfl⟩
      | recovering =>
        obtain ⟨entries, hEntries⟩ := exists_recoverEntries? (hk rfl hs)
        exact ⟨_, congrArg (Option.map _) hEntries⟩
    obtain ⟨o, hOutcome⟩ := hOutcome
    refine ⟨s.advance .declarations o, s.fresh.advance .declarations o, ?_, ?_, ?_⟩
    · rw [step?, hOutcome]
      rfl
    · rw [step?, hMode, hRest, hOutcome]
      rfl
    · exact likeFresh_advance h (Outcome.filling_declarations hOutcome) fun _ => rfl

/-! ## Some steps -/

/-- What no step takes back. -/
structure Follows (s t : Session) : Prop where
  mode : t.mode = s.mode
  source : t.source = s.source
  rest : t.rest <:+ s.rest
  skipped : s.skipped <+: t.skipped
  strict : s.mode = .strict → t.skipped = s.skipped

theorem Follows.trans (hst : s.Follows t) (htu : t.Follows u) : s.Follows u where
  mode := htu.mode.trans hst.mode
  source := htu.source.trans hst.source
  rest := htu.rest.trans hst.rest
  skipped := hst.skipped.trans htu.skipped
  strict h := (htu.strict (hst.mode.trans h)).trans (hst.strict h)

theorem follows_advance (ho : o.Filling s.mode s.rest) :
    s.Follows (s.advance answer o).2 := by
  obtain ⟨noted, reading⟩ := o
  have hWithin := ho.within
  have hSkipped : s.skipped <+: s.skipped ++ noted := List.prefix_append _ _
  have hStrict : s.mode = .strict → s.skipped ++ noted = s.skipped := by
    intro h
    rw [show noted = [] from ho.strict h, List.append_nil]
  cases reading with
  | ok p => exact ⟨rfl, rfl, hWithin, hSkipped, hStrict⟩
  | error failure => exact ⟨rfl, rfl, hWithin.2.trans hWithin.1, hSkipped, hStrict⟩

theorem Leads.follows (h : s.Leads t) : s.Follows t := by
  induction h with
  | refl => exact ⟨rfl, rfl, List.suffix_rfl, List.prefix_rfl, fun _ => rfl⟩
  | step _ hStep ih =>
    obtain ⟨α, answer, o, -, ho, -, rfl⟩ := exists_advance hStep
    exact ih.trans (follows_advance ho)

theorem Follows.position_le (h : s.Follows t) : s.position ≤ t.position := by
  rw [position, position, h.source]
  exact Nat.sub_le_sub_left h.rest.length_le _

theorem Follows.diagnostics_prefix (h : s.Follows t) : s.diagnostics <+: t.diagnostics := by
  rw [diagnostics, diagnostics, h.source]
  exact h.skipped.map _

/-! ## Nothing left to read -/

theorem advance_of_nil (h : s.rest = []) (a : α) :
    s.advance answer ⟨[], .ok (a, [])⟩ = (answer a, s) := by
  obtain ⟨mode, source, rest, skipped⟩ := s
  obtain rfl : rest = [] := h
  rw [advance, List.append_nil]

theorem declarationsOutcome?_nil (mode : Mode) :
    declarationsOutcome? mode [] = some ⟨[], .ok ([], [])⟩ := by
  cases mode with
  | strict =>
    rw [declarationsOutcome?, readDeclarations_eq]
    rfl
  | recovering =>
    have hEntries : recoverEntries? [] = some [] := by simp [recoverEntries?, Text.skipBlanks]
    rw [declarationsOutcome?, hEntries]
    rfl

theorem step?_of_nil (h : s.rest = []) (k : SessionStep) : s.step? k = some (k.nothing, s) := by
  cases k with
  | rules =>
    rw [step?, h, readRules_nil, advance_of_nil h]
    rfl
  | declarations =>
    rw [step?, h, declarationsOutcome?_nil, Option.map_some, advance_of_nil h]
    rfl

theorem rest_of_step {k : SessionStep} {a : SessionAnswer} (h : s.step? k = some (a, u))
    (ha : a.error? = none) : u.rest = [] := by
  obtain ⟨α, answer, ⟨noted, reading⟩, -, ho, rfl, rfl⟩ := exists_advance h
  cases reading with
  | ok p => exact ho.ended rfl
  | error failure => cases ha

theorem Leads.eq_of_nil (h : s.Leads t) (hs : s.rest = []) : t = s := by
  induction h with
  | refl => rfl
  | @step t u k a _ hStep ih =>
    obtain rfl := ih
    rw [step?_of_nil hs] at hStep
    exact (Prod.mk.inj (Option.some.inj hStep)).2.symm

end Session

/-- A session after some steps, with faults or without. It has not gone back, and what was noted
before stays noted; every step that may be asked for comes to what it would come to from the start;
and once a step has succeeded nothing happens any more. -/
structure Session.Resumes (s t : Session) : Prop where
  mode : t.mode = s.mode
  source : t.source = s.source
  split : t.source.take t.position ++ t.rest = t.source
  forward : s.position ≤ t.position
  bounded : t.position ≤ t.source.length
  noted : s.diagnostics <+: t.diagnostics
  strict : s.mode = .strict → t.diagnostics = s.diagnostics
  step : ∀ k, t.Allows k → ∃ result fresh, t.step? k = some result ∧ t.fresh.step? k = some fresh ∧
    t.LikeFresh result fresh
  finished : ∀ k a u, t.step? k = some (a, u) → a.error? = none →
    ∀ v, u.Leads v → v = u ∧ ∀ k, v.step? k = some (k.nothing, v)

/-- A session goes on as from the start, wherever it was and whatever steps it has been through. -/
theorem session_resumes {s t : Session} (hs : s.rest <:+ s.source) (ht : s.Leads t) :
    s.Resumes t := by
  have hFollows := ht.follows
  have hSuffix : t.rest <:+ t.source := hFollows.source ▸ hFollows.rest.trans hs
  constructor
  case mode => exact hFollows.mode
  case source => exact hFollows.source
  case split => exact Session.take_position hSuffix
  case forward => exact hFollows.position_le
  case bounded => exact Nat.sub_le _ _
  case noted => exact hFollows.diagnostics_prefix
  case strict =>
    intro hStrict
    rw [Session.diagnostics, Session.diagnostics, hFollows.source, hFollows.strict hStrict]
  case step => exact fun k hk => Session.exists_step hSuffix hk
  case finished =>
    intro k a u hStep ha v hv
    have hNil := Session.rest_of_step hStep ha
    obtain rfl := hv.eq_of_nil hNil
    exact ⟨rfl, Session.step?_of_nil hNil⟩

/-- A word that no colon follows ends a reading of declarations, and a rule follows it. -/
theorem session_resumes_behind_word :
    let s : Session := .start .strict "x y\x7b\x7d"
    let t : Session := { s with rest := "y\x7b\x7d".toList }
    s.rest <:+ s.source ∧ s.Leads t ∧ s.Resumes t := by
  intro s t
  have hRead : readDeclarations s.rest = .error ⟨.missingColon "x", t.rest, t.rest⟩ := by
    rw [readDeclarations_eq]
    rfl
  have hStep : s.step? .declarations = some (.failed ⟨.missingColon "x", ⟨1, 3⟩⟩, t) :=
    congrArg (fun r => some (s.advance .declarations ⟨[], r⟩)) hRead
  have hLeads : s.Leads t := .step (.refl s) hStep
  exact ⟨List.suffix_rfl, hLeads, session_resumes List.suffix_rfl hLeads⟩

end BlockFlow
