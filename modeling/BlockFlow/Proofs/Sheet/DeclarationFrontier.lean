import BlockFlow.Proofs.Sheet.ValueFrontier

/-! # Faulty declarations

A declaration goes wrong in its property, at its colon, in its value or at its semicolon. Whatever
was read before can be completed with a short value and the marks that are still to come.
-/

namespace BlockFlow

open Grammar

variable {outer text : List Char} {failure : Failure}

def Phrase.declaration : Phrase where
  completes text := ∃ d, IsDeclaration text d
  reads text := (Declaration.read text).Succeeds

theorem isDeclaration_of_value {name blanks next blanks' written next' blanks'' : List Char}
    {value : Value Float} (hName : Name name next) (hBlanks : Blanks blanks)
    (hBlanks' : Blanks blanks') (hValue : IsValue written value next')
    (hBlanks'' : Blanks blanks'') :
    IsDeclaration (name ++ blanks ++ ':' :: (blanks' ++ written ++ blanks'' ++ [';']))
      ⟨String.ofList name, value⟩ :=
  .mk (hName.of_ends (.behind hBlanks (.cons rfl _))) hBlanks hBlanks'
    (hValue.of_ends (.behind hBlanks'' (.cons rfl _))) hBlanks''

theorem Grammar.Name.read_declaration {name rest : List Char} (h : Name name rest) :
    Declaration.read (name ++ rest) = Declaration.readAfter (String.ofList name) rest := by
  rw [Declaration.read, readName_eq_ok_iff.mpr ⟨name, rfl, h, rfl⟩]
  rfl

theorem Declaration.read_of_colon {name next blanks blanks' rest : List Char}
    (hName : Name name next) (hBlanks : Blanks blanks) (hBlanks' : Blanks blanks')
    (hRest : ∀ c ∈ rest.head?, Text.isBlank c = false) :
    Declaration.read (name ++ blanks ++ ':' :: blanks' ++ rest) =
      (Value.read rest).andThen fun value rest =>
        (readMark ';' (.missingSemicolon (String.ofList name)) (Text.skipBlanks rest)).andThen
          fun _ rest => .ok (⟨String.ofList name, value⟩, rest) := by
  have hText : name ++ blanks ++ ':' :: blanks' ++ rest =
      name ++ (blanks ++ ':' :: (blanks' ++ rest)) := by simp
  have hColon : Name name (blanks ++ ':' :: (blanks' ++ rest)) :=
    hName.of_ends (.behind hBlanks (.cons rfl _))
  have hSkip : Text.skipBlanks (blanks' ++ rest) = rest :=
    skipBlanks_eq_iff.mpr ⟨⟨blanks', rfl, hBlanks'⟩, hRest⟩
  rw [hText, hColon.read_declaration, readAfter, skipBlanks_append_mark hBlanks rfl, readMark,
    if_pos rfl, Reading.andThen, hSkip]

theorem isNumberChar_eq_false_of_isBlank {c : Char} (h : Text.isBlank c = true) :
    isNumberChar c = false := by
  apply Bool.eq_false_iff.mpr
  intro hNumber
  rcases Bool.or_eq_true_iff.mp hNumber with hDigit | hPoint
  · rw [isBlank_eq_false_of_isNameChar (isNameChar_of_isDigit hDigit)] at h
    cases h
  · rw [beq_iff_eq.mp hPoint] at h
    cases h

theorem numberStarts_of_colon (before : List Char) {blanks : List Char} (hBlanks : Blanks blanks) :
    NumberStarts (before ++ ':' :: blanks) := by
  have hLast : (before ++ ':' :: blanks).getLast? = some ((':' :: blanks).getLast (by simp)) := by
    rw [List.getLast?_append, List.getLast?_eq_some_getLast (by simp)]
    rfl
  refine ⟨_, hLast, ?_⟩
  rcases List.mem_cons.mp (List.getLast_mem (l := ':' :: blanks) (by simp)) with hColon | hBlank
  · rw [hColon]
    rfl
  · exact isNumberChar_eq_false_of_isBlank (hBlanks _ hBlank)

theorem viable_declaration {name next blanks : List Char} (hName : Name name next)
    (hBlanks : Blanks blanks) : ∃ more, Phrase.declaration.completes (name ++ blanks ++ more) :=
  ⟨_, _, isDeclaration_of_value hName hBlanks .nil (isValue_a .nil) .nil⟩

theorem Declaration.atFrontier_of_value {name next blanks blanks' : List Char}
    (hName : Name name next) (hBlanks : Blanks blanks) (hBlanks' : Blanks blanks')
    (hHead : ∀ c ∈ text.head?, Text.isBlank c = false) (h : Value.read text = .error failure) :
    failure.AtFrontier outer .declaration (name ++ blanks ++ ':' :: blanks' ++ text) := by
  have hOuter : NumberStarts (outer ++ (name ++ blanks ++ ':' :: blanks')) := by
    rw [← List.append_assoc]
    exact numberStarts_of_colon _ hBlanks'
  refine (Value.atFrontier hOuter h).lift ?_ ?_
  · rintro t ⟨value, hValue⟩
    have hDeclaration := isDeclaration_of_value hName hBlanks hBlanks' hValue .nil
    exact ⟨[';'], _, by simpa using hDeclaration⟩
  · intro t ht hReads
    change (Declaration.read (name ++ blanks ++ ':' :: blanks' ++ t)).Succeeds at hReads
    rw [read_of_colon hName hBlanks hBlanks' (ht ▸ hHead)] at hReads
    exact hReads.of_andThen

/-- Nothing but a semicolon can stand behind the value and the blanks after it. -/
theorem Declaration.atFrontier_of_semicolon
    {name next blanks blanks' written blanks'' beyond : List Char} {value : Value Float}
    (hName : Name name next) (hBlanks : Blanks blanks) (hBlanks' : Blanks blanks')
    (hValue : IsValue written value (blanks'' ++ beyond)) (hBlanks'' : Blanks blanks'')
    (hHead : ∀ c ∈ beyond.head?, Text.isBlank c = false) (hNone : beyond.head? ≠ some ';') :
    (Failure.here (.missingSemicolon (String.ofList name)) beyond).AtFrontier outer .declaration
      (name ++ blanks ++ ':' :: blanks' ++ (written ++ (blanks'' ++ beyond))) := by
  have hDeclaration := isDeclaration_of_value hName hBlanks hBlanks' hValue hBlanks''
  rw [← List.append_assoc, ← List.append_assoc]
  refine .here _ rfl rfl ⟨⟨[';'], _, by simpa using hDeclaration⟩, ?_⟩
  rintro c hc more ⟨d, left, hReads⟩
  obtain ⟨beyond, rfl⟩ := List.head?_eq_some_iff.mp hc
  have hValue' : IsValue written value (blanks'' ++ c :: more) :=
    hValue.of_head (head?_append_cons _ _ _ _)
  have hStart : ∀ e ∈ (written ++ (blanks'' ++ c :: more)).head?, Text.isBlank e = false := by
    obtain ⟨e, tail, rfl, he⟩ := hValue.head
    rintro _ ⟨⟩
    exact he
  have hMark : readMark ';' (.missingSemicolon (String.ofList name)) (c :: more) = .error _ :=
    readMark_eq_error_iff.mpr ⟨hNone, rfl⟩
  rw [List.append_assoc, List.append_assoc, read_of_colon hName hBlanks hBlanks' hStart,
    Value.read_eq_ok_iff.mpr ⟨written, rfl, hValue'⟩, Reading.andThen,
    skipBlanks_append_mark hBlanks'' (hHead c rfl), hMark] at hReads
  cases hReads

theorem Declaration.atFrontier_of_colon {name next blanks blanks' : List Char}
    (hName : Name name next) (hBlanks : Blanks blanks) (hBlanks' : Blanks blanks')
    (hHead : ∀ c ∈ text.head?, Text.isBlank c = false)
    (h : Declaration.read (name ++ blanks ++ ':' :: blanks' ++ text) = .error failure) :
    failure.AtFrontier outer .declaration (name ++ blanks ++ ':' :: blanks' ++ text) := by
  rw [read_of_colon hName hBlanks hBlanks' hHead] at h
  cases hRead : Value.read text with
  | error inner =>
    rw [hRead] at h
    obtain rfl := Except.error.inj h
    exact atFrontier_of_value hName hBlanks hBlanks' hHead hRead
  | ok p =>
    obtain ⟨value, after⟩ := p
    obtain ⟨written, rfl, hValue⟩ := Value.read_eq_ok_iff.mp hRead
    rw [hRead, Reading.andThen] at h
    cases hMark : readMark ';' (.missingSemicolon (String.ofList name)) (Text.skipBlanks after) with
    | ok p =>
      rw [hMark] at h
      cases h
    | error inner =>
      obtain ⟨hNone, rfl⟩ := readMark_eq_error_iff.mp hMark
      rw [hMark] at h
      obtain rfl := Except.error.inj h
      obtain ⟨⟨blanks'', hAfter, hBlanks''⟩, hEnd⟩ :=
        skipBlanks_eq_iff.mp (rfl : Text.skipBlanks after = _)
      generalize Text.skipBlanks after = beyond at *
      subst hAfter
      exact atFrontier_of_semicolon hName hBlanks hBlanks' hValue hBlanks'' hEnd hNone

theorem Declaration.atFrontier_of_name {name rest : List Char} (hName : Name name rest)
    (h : Declaration.read (name ++ rest) = .error failure) :
    failure.AtFrontier outer .declaration (name ++ rest) := by
  obtain ⟨⟨blanks, hRest, hBlanks⟩, hHead⟩ := skipBlanks_eq_iff.mp (rfl : Text.skipBlanks rest = _)
  cases hColon : readMark ':' (.missingColon (String.ofList name)) (Text.skipBlanks rest) with
  | error inner =>
    obtain ⟨hMark, rfl⟩ := readMark_eq_error_iff.mp hColon
    rw [hName.read_declaration, readAfter, hColon] at h
    obtain rfl := Except.error.inj h
    generalize Text.skipBlanks rest = after at *
    subst hRest
    rw [← List.append_assoc]
    refine .here _ rfl rfl ⟨viable_declaration hName hBlanks, ?_⟩
    rintro c hc more ⟨d, left, hReads⟩
    obtain ⟨after, rfl⟩ := List.head?_eq_some_iff.mp hc
    have hName' : Name name (blanks ++ c :: more) := hName.of_head (head?_append_cons _ _ _ _)
    have hMark' : readMark ':' (.missingColon (String.ofList name)) (c :: more) = .error _ :=
      readMark_eq_error_iff.mpr ⟨hMark, rfl⟩
    rw [List.append_assoc, hName'.read_declaration, readAfter,
      skipBlanks_append_mark hBlanks (hHead c rfl), hMark'] at hReads
    cases hReads
  | ok p =>
    rw [readMark_eq_ok_iff.mp hColon] at hRest
    generalize p.2 = more at hRest
    obtain ⟨⟨blanks', hMore, hBlanks'⟩, hHead'⟩ :=
      skipBlanks_eq_iff.mp (rfl : Text.skipBlanks more = _)
    generalize Text.skipBlanks more = after at hMore hHead'
    have hText : name ++ rest = name ++ blanks ++ ':' :: blanks' ++ after := by
      rw [hRest, hMore]
      simp
    rw [hText] at h ⊢
    exact atFrontier_of_colon hName hBlanks hBlanks' hHead' h

theorem Declaration.atFrontier (h : Declaration.read text = .error failure) :
    failure.AtFrontier outer .declaration text := by
  cases hRead : readName .missingProperty text with
  | error inner =>
    obtain ⟨hEnds, rfl⟩ := readName_eq_error_iff.mp hRead
    rw [Declaration.read, hRead] at h
    obtain rfl := Except.error.inj h
    obtain ⟨more, hMore⟩ := viable_declaration (name_a .nil) .nil
    refine .here [] rfl rfl ⟨⟨_, hMore⟩, ?_⟩
    rintro c hc more ⟨d, rest, hReads⟩
    obtain ⟨read, hText, hDeclaration⟩ := Declaration.read_eq_ok_iff.mp hReads
    obtain ⟨e, tail, rfl, he⟩ := hDeclaration.head
    obtain ⟨rfl, -⟩ := List.cons.inj hText
    rw [hEnds c hc] at he
    cases he
  | ok p =>
    obtain ⟨name, rfl, hName, -⟩ := readName_eq_ok_iff.mp hRead
    exact Declaration.atFrontier_of_name hName h

end BlockFlow
