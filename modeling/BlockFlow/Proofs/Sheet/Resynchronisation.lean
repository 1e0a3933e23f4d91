import BlockFlow.Proofs.Sheet.Bodies

/-! # Where a malformed declaration ends

However a declaration goes wrong, its reader stops before any semicolon and any closing brace. What
is passed over therefore depends on the text alone: it goes from the start of the declaration to
behind the first semicolon, or to the first closing brace or the end of the text.
-/

namespace BlockFlow

open Grammar

/-- A text without semicolons and closing braces. -/
def Inside (text : List Char) : Prop := ∀ c ∈ text, isInsideDeclaration c = true

/-- What is passed over from the start of a malformed declaration on, with what follows it. -/
inductive Stretch : List Char → List Char → Prop
  | semicolon {inside after} : Inside inside → Stretch (inside ++ [';']) after
  | brace {inside after} : Inside inside → (∀ c ∈ after.head?, c = '\x7d') → Stretch inside after

theorem Inside.nil : Inside [] :=
  fun _ hc => absurd hc List.not_mem_nil

theorem Inside.append {left right : List Char} (hl : Inside left) (hr : Inside right) :
    Inside (left ++ right) := by
  intro c hc
  rcases List.mem_append.mp hc with hc | hc
  · exact hl c hc
  · exact hr c hc

theorem Inside.cons {c : Char} {text : List Char} (hc : isInsideDeclaration c = true)
    (h : Inside text) : Inside (c :: text) := by
  intro d hd
  rcases List.mem_cons.mp hd with rfl | hd
  · exact hc
  · exact h d hd

theorem inside_of_test (test : Char → Bool) (hSemicolon : test ';' = false)
    (hBrace : test '\x7d' = false) {text : List Char} (h : ∀ c ∈ text, test c = true) :
    Inside text := by
  intro c hc
  have hTest := h c hc
  rw [isInsideDeclaration, Bool.and_eq_true, bne_iff_ne, bne_iff_ne]
  constructor
  · rintro rfl
    rw [hSemicolon] at hTest
    cases hTest
  · rintro rfl
    rw [hBrace] at hTest
    cases hTest

theorem inside_leadingName (text : List Char) : Inside (leadingName text) :=
  inside_of_test _ rfl rfl (mem_takeWhile isNameChar text)

theorem Grammar.Name.inside {name next : List Char} (h : Name name next) : Inside name :=
  inside_of_test _ rfl rfl h.chars

theorem Grammar.Blanks.inside {blanks : List Char} (h : Blanks blanks) : Inside blanks :=
  inside_of_test _ rfl rfl h

theorem Grammar.Channel.inside {text : List Char} {channel : UInt8} (h : Channel text channel) :
    Inside text := by
  obtain ⟨a, b, x, y, rfl, ha, hb, -⟩ := h
  apply inside_of_test (fun c => (Text.hexValue? c).isSome) rfl rfl
  simp [ha, hb]

theorem Grammar.IsValue.inside {text next : List Char} {v : Value Float} (h : IsValue text v next) :
    Inside text := by
  cases h with
  | length hNumber hName _ => exact (inside_of_test _ rfl rfl hNumber.isNumberChar).append hName.inside
  | color hr hg hb => exact .cons rfl ((hr.inside.append hg.inside).append hb.inside)
  | keyword hName _ => exact hName.inside

/-! ## Where readers stop -/

namespace Reading

variable {α β : Type}

/-- If the reading fails, it does so before any semicolon and any closing brace. -/
def FailsInside (text : List Char) (r : Reading α) : Prop :=
  ∀ failure, r = .error failure → ∃ read, text = read ++ failure.rest ∧ Inside read

theorem FailsInside.here {text : List Char} {fault : Fault} :
    FailsInside (α := α) text (.error (.here fault text)) := by
  intro failure h
  cases h
  exact ⟨[], rfl, .nil⟩

theorem FailsInside.behind {before text : List Char} {r : Reading α} (h : r.FailsInside text)
    (hBefore : Inside before) : r.FailsInside (before ++ text) := by
  intro failure hr
  obtain ⟨read, rfl, hRead⟩ := h failure hr
  exact ⟨before ++ read, (List.append_assoc _ _ _).symm, hBefore.append hRead⟩

theorem FailsInside.map {text : List Char} {f : α → β} {r : Reading α} (h : r.FailsInside text) :
    (r.map f).FailsInside text := by
  intro failure hMap
  cases r with
  | ok p => cases hMap
  | error failure' =>
    cases hMap
    exact h failure rfl

theorem FailsInside.andThen {text : List Char} {r : Reading α} {k : α → List Char → Reading β}
    (h : r.FailsInside text) (hk : ∀ a rest, r = .ok (a, rest) → (k a rest).FailsInside text) :
    (r.andThen k).FailsInside text := by
  cases r with
  | ok p => exact hk p.1 p.2 rfl
  | error failure =>
    intro failure' hFailure
    cases hFailure
    exact h failure rfl

end Reading

theorem readName_failsInside (missing : Fault) (text : List Char) :
    (readName missing text).FailsInside text := by
  unfold readName
  split
  · exact .here
  · intro failure h
    cases h

theorem readMark_failsInside (mark : Char) (missing : Fault) (text : List Char) :
    (readMark mark missing text).FailsInside text := by
  unfold readMark
  split
  · split
    · intro failure h
      cases h
    · exact .here
  · exact .here

theorem Reading.FailsInside.of_skipBlanks {α : Type} {text : List Char} {r : Reading α}
    (h : r.FailsInside (Text.skipBlanks text)) : r.FailsInside text := by
  obtain ⟨⟨blanks, hText, hBlanks⟩, -⟩ := skipBlanks_eq_iff.mp (rfl : Text.skipBlanks text = _)
  have hBehind := h.behind hBlanks.inside
  rwa [← hText] at hBehind

theorem readLength_failsInside (text : List Char) : (readLength text).FailsInside text := by
  have hText : text = text.takeWhile isNumberChar ++ text.dropWhile isNumberChar :=
    List.takeWhile_append_dropWhile.symm
  have hNumber : Inside (text.takeWhile isNumberChar) :=
    inside_of_test _ rfl rfl (mem_takeWhile isNumberChar text)
  intro failure h
  unfold readLength at h
  dsimp only at h
  split at h
  · cases h
    exact ⟨_, hText, hNumber⟩
  · split at h
    · cases h
    · cases h
      refine ⟨text.takeWhile isNumberChar ++ leadingName (text.dropWhile isNumberChar), ?_,
        hNumber.append (inside_leadingName _)⟩
      rw [List.append_assoc, leadingName_append_afterName]
      exact hText

theorem Value.read_failsInside (text : List Char) : (Value.read text).FailsInside text := by
  unfold Value.read
  split
  · exact .here
  · next c rest =>
    split
    · exact readLength_failsInside _
    · split
      · next hHash =>
        have hColor : (readColor rest).FailsInside rest := by
          unfold readColor
          split
          · intro failure h
            cases h
          · exact .here
        exact hColor.behind (.cons (hHash ▸ rfl) .nil)
      · exact (readName_failsInside _ _).map

theorem Declaration.read_failsInside (text : List Char) :
    (Declaration.read text).FailsInside text := by
  refine (readName_failsInside _ _).andThen fun name rest hName => ?_
  obtain ⟨chars, rfl, hChars, -⟩ := readName_eq_ok_iff.mp hName
  refine .behind ?_ hChars.inside
  refine (readMark_failsInside _ _ _).of_skipBlanks.andThen fun _ rest' hColon => ?_
  obtain ⟨blanks, rfl, hBlanks⟩ := (readMark_skipBlanks_eq_ok_iff rfl).mp hColon
  refine .behind (.behind ?_ (Inside.cons rfl .nil)) hBlanks.inside
  refine (Value.read_failsInside _).of_skipBlanks.andThen fun value rest'' hValue => ?_
  obtain ⟨read, hText, hRead⟩ := Value.read_eq_ok_iff.mp hValue
  obtain ⟨⟨blanks', rfl, hBlanks'⟩, -⟩ := skipBlanks_eq_iff.mp hText
  refine .behind (.behind ?_ hRead.inside) hBlanks'.inside
  refine (readMark_failsInside _ _ _).of_skipBlanks.andThen fun _ _ _ => ?_
  intro failure h
  cases h

/-! ## What is passed over -/

theorem skipDeclaration_append {inside : List Char} (h : Inside inside) (text : List Char) :
    skipDeclaration (inside ++ text) = skipDeclaration text := by
  rw [skipDeclaration, List.dropWhile_append_of_pos h, skipDeclaration]

/-- Passing over a declaration from where it went wrong is passing over it from its start. -/
theorem Entry.recover_of_failure {text : List Char} {failure : Failure}
    (h : Declaration.read text = .error failure) :
    Entry.recover text = (.skipped ⟨failure.fault, failure.position,
      String.ofList (leadingName text)⟩, skipDeclaration text) := by
  obtain ⟨read, hText, hRead⟩ := Declaration.read_failsInside text failure h
  have hSkip : skipDeclaration text = skipDeclaration failure.rest := by
    rw [hText, skipDeclaration_append hRead]
  rw [Entry.recover, h, hSkip]

theorem stretch_skipDeclaration (text : List Char) :
    ∃ bad, text = bad ++ skipDeclaration text ∧ Stretch bad (skipDeclaration text) := by
  have hText : text.takeWhile isInsideDeclaration ++ text.dropWhile isInsideDeclaration = text :=
    List.takeWhile_append_dropWhile
  have hInside : Inside (text.takeWhile isInsideDeclaration) := mem_takeWhile _ _
  have hHead := head?_dropWhile isInsideDeclaration text
  unfold skipDeclaration
  split
  · next rest hRest =>
    rw [hRest] at hText
    exact ⟨_, by rw [List.append_assoc]; exact hText.symm, .semicolon hInside⟩
  · next hRest =>
    refine ⟨_, hText.symm, .brace hInside ?_⟩
    intro c hc
    have hMark := hHead c hc
    simp only [isInsideDeclaration, Bool.and_eq_false_iff, bne_eq_false_iff_eq] at hMark
    rcases hMark with rfl | rfl
    · obtain ⟨rest, hCons⟩ : ∃ rest, text.dropWhile isInsideDeclaration = ';' :: rest :=
        List.head?_eq_some_iff.mp hc
      exact absurd hCons (hRest rest)
    · rfl

theorem Grammar.IsDeclaration.exists_inside {text : List Char} {d : Declaration Float}
    (h : IsDeclaration text d) : ∃ inside, text = inside ++ [';'] ∧ Inside inside := by
  obtain @⟨name, blanks, blanks', text, value, blanks'', hName, hBlanks, hBlanks', hValue, hBlanks''⟩
    := h
  refine ⟨name ++ blanks ++ ':' :: (blanks' ++ text ++ blanks''), by simp, ?_⟩
  exact (hName.inside.append hBlanks.inside).append
    (.cons rfl ((hBlanks'.inside.append hValue.inside).append hBlanks''.inside))

/-- A declaration that is well formed ends where it would be passed over to. -/
theorem Entry.snd_recover (text : List Char) : (Entry.recover text).2 = skipDeclaration text := by
  cases h : Declaration.read text with
  | error failure => rw [Entry.recover_of_failure h]
  | ok p =>
    obtain ⟨d, rest⟩ := p
    obtain ⟨read, hText, hRead⟩ := Declaration.read_eq_ok_iff.mp h
    obtain ⟨inside, rfl, hInside⟩ := hRead.exists_inside
    rw [Entry.recover, h, hText, List.append_assoc, skipDeclaration_append hInside]
    rfl

end BlockFlow
