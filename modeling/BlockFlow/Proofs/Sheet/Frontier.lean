import BlockFlow.Proofs.Sheet.Bodies

/-! # The frontier of a text

A text that cannot be read has a frontier: what stands before it can be completed to a text that is
read, and with the next character it no longer can. A failure points at the frontier or, when a
token as a whole is at fault, at the start of the token that the frontier lies in.
-/

namespace BlockFlow

open Grammar

/-- A kind of text: when a text is complete, and when a text starts with one that is read. -/
structure Phrase where
  completes : List Char → Prop
  reads : List Char → Prop

/-- Some text behind `good` completes it, but none that starts like `beyond`. -/
structure Phrase.Frontier (phrase : Phrase) (good beyond : List Char) : Prop where
  viable : ∃ more, phrase.completes (good ++ more)
  dead : ∀ c ∈ beyond.head?, ∀ more, ¬ phrase.reads (good ++ c :: more)

def isHexDigit (c : Char) : Bool := (Text.hexValue? c).isSome

/-- A number that stands behind a text starts there: the text does not end in a part of it. -/
def NumberStarts (before : List Char) : Prop := ∃ c ∈ before.getLast?, isNumberChar c = false

/-- The frontier may lie `count` characters behind the place of a fault, given the text before the
place and the text from there on. A fault of a number, a unit or a color is at the start of this
token and the frontier within it; for any other fault the place is the frontier. -/
def Fault.Spans (fault : Fault) (before rest : List Char) (count : Nat) : Prop :=
  match fault with
  | malformedNumber number =>
    NumberStarts before ∧ number.toList = rest.takeWhile isNumberChar ∧
      count ≤ number.toList.length
  | unknownUnit unit =>
    (∃ due number, before = due ++ number ∧ NumberStarts due ∧ Number number) ∧
      (∀ c ∈ rest.head?, isNumberChar c = false) ∧
      unit.toList = (leadingName rest).map Char.toLower ∧ count ≤ unit.toList.length
  | malformedColor =>
    before.getLast? = some '#' ∧ count = ((rest.take 6).takeWhile isHexDigit).length
  | _ => count = 0

/-- A failure to read a text as a phrase, behind other text, is at the frontier of the text. -/
def Failure.AtFrontier (failure : Failure) (outer : List Char) (phrase : Phrase)
    (text : List Char) : Prop :=
  ∃ read inside beyond, text = read ++ (inside ++ beyond) ∧ failure.position = inside ++ beyond ∧
    failure.fault.Spans (outer ++ read) (inside ++ beyond) inside.length ∧
    phrase.Frontier (read ++ inside) beyond

namespace Failure.AtFrontier

variable {failure : Failure} {outer : List Char} {phrase larger : Phrase}

theorem here (read : List Char) {beyond : List Char} (hPosition : failure.position = beyond)
    (hSpans : failure.fault.Spans (outer ++ read) beyond 0) (h : phrase.Frontier read beyond) :
    failure.AtFrontier outer phrase (read ++ beyond) := by
  refine ⟨read, [], beyond, rfl, hPosition, hSpans, ?_⟩
  rwa [List.append_nil]

theorem at_end {read : List Char} (hPosition : failure.position = [])
    (hSpans : failure.fault.Spans (outer ++ read) [] 0)
    (h : ∃ more, phrase.completes (read ++ more)) : failure.AtFrontier outer phrase read := by
  rw [← List.append_nil read]
  refine here read hPosition hSpans ⟨h, ?_⟩
  rintro _ ⟨⟩

/-- A phrase within a larger one: what completes the phrase completes the larger one as well, and
the larger one is read only if the phrase is. -/
theorem lift {before text : List Char} (h : failure.AtFrontier (outer ++ before) phrase text)
    (hCompletes : ∀ t, phrase.completes t → ∃ more, larger.completes (before ++ t ++ more))
    (hReads : ∀ t, t.head? = text.head? → larger.reads (before ++ t) → phrase.reads t) :
    failure.AtFrontier outer larger (before ++ text) := by
  obtain ⟨read, inside, beyond, rfl, hPosition, hSpans, ⟨more, hMore⟩, hDead⟩ := h
  refine ⟨before ++ read, inside, beyond, (List.append_assoc _ _ _).symm, hPosition, ?_, ?_, ?_⟩
  · rwa [← List.append_assoc]
  · obtain ⟨rest, hRest⟩ := hCompletes _ hMore
    refine ⟨more ++ rest, ?_⟩
    simpa only [List.append_assoc] using hRest
  · intro c hc more hLarger
    rw [List.append_assoc, List.append_assoc] at hLarger
    refine hDead c hc more (List.append_assoc _ _ _ ▸ hReads _ ?_ hLarger)
    -- up to the frontier the longer text is the given one, so that it starts as that does
    obtain ⟨beyond, rfl⟩ := List.head?_eq_some_iff.mp hc
    rw [← List.append_assoc, ← List.append_assoc]
    exact head?_append_cons _ _ _ _

end Failure.AtFrontier

/-- Something was read. -/
def Reading.Succeeds {α : Type} (r : Reading α) : Prop := ∃ a rest, r = .ok (a, rest)

namespace Reading.Succeeds

variable {α β : Type} {r : Reading α}

theorem of_map {f : α → β} (h : (r.map f).Succeeds) : r.Succeeds := by
  obtain ⟨b, rest, h⟩ := h
  obtain ⟨a, ha, -⟩ := map_eq_ok_iff.mp h
  exact ⟨a, rest, ha⟩

theorem of_andThen {k : α → List Char → Reading β} (h : (r.andThen k).Succeeds) : r.Succeeds := by
  obtain ⟨b, rest, h⟩ := h
  obtain ⟨a, more, ha, -⟩ := andThen_eq_ok_iff.mp h
  exact ⟨a, more, ha⟩

end Reading.Succeeds

theorem Reading.not_succeeds_error {α : Type} (failure : Failure) :
    ¬ Reading.Succeeds (.error failure : Reading α) := by
  rintro ⟨a, rest, h⟩
  cases h

theorem readName_eq_error_iff {missing : Fault} {text : List Char} {failure : Failure} :
    readName missing text = .error failure ↔ Ends text ∧ failure = .here missing text := by
  have hEnds : leadingName text = [] ↔ Ends text := by
    constructor
    · intro h c hc
      cases text with
      | nil => cases hc
      | cons d text =>
        obtain rfl := Option.some.inj hc
        by_contra hName
        rw [leadingName, List.takeWhile_cons_of_pos (by simpa using hName)] at h
        cases h
    · exact takeWhile_eq_nil
  rw [← hEnds]
  unfold readName
  constructor
  · intro h
    split at h
    · next hNil => exact ⟨hNil, (Except.error.inj h).symm⟩
    · cases h
  · rintro ⟨hNil, rfl⟩
    rw [hNil]

theorem readMark_eq_error_iff {mark : Char} {missing : Fault} {text : List Char}
    {failure : Failure} : readMark mark missing text = .error failure ↔
      text.head? ≠ some mark ∧ failure = .here missing text := by
  cases text with
  | nil => simp [readMark, eq_comm]
  | cons c rest =>
    by_cases hc : c = mark
    · simp [readMark, hc]
    · rw [readMark, if_neg hc, Except.error.injEq]
      exact ⟨fun h => ⟨fun hHead => hc (Option.some.inj hHead), h.symm⟩, fun h => h.2.symm⟩

theorem name_a {next : List Char} (h : Ends next) : Name ['a'] next :=
  ⟨List.cons_ne_nil _ _, List.all_eq_true.mp rfl, h⟩

end BlockFlow
