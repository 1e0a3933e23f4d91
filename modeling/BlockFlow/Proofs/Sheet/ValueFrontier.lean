import BlockFlow.Proofs.Sheet.Frontier

/-! # Faulty values

A number can be completed up to its second point, a unit as far as it agrees with `px`, and a color
as far as there are hexadecimal digits. These three are reported where the token starts.
-/

namespace BlockFlow

open Grammar

def Phrase.value : Phrase where
  completes text := ∃ v, IsValue text v [';']
  reads text := (Value.read text).Succeeds

theorem isValue_a {next : List Char} (h : Ends next) :
    IsValue ['a'] (.keyword (String.ofList ['a'])) next := by
  refine .keyword (name_a h) ?_
  intro c hc
  obtain rfl := Option.some.inj hc
  rfl

theorem isNumberChar_of_isDigit {c : Char} (h : c.isDigit = true) : isNumberChar c = true := by
  rw [isNumberChar, h, Bool.true_or]

theorem number_of_chars {number : List Char}
    (hDigit : ∃ c more, number = c :: more ∧ c.isDigit = true)
    (hChars : ∀ c ∈ number, isNumberChar c = true) (hPoints : number.count '.' ≤ 1) :
    Number number := by
  refine ⟨hDigit, ?_, hPoints⟩
  intro c hc
  have hChar := hChars c hc
  rwa [isNumberChar, Bool.or_eq_true, beq_iff_eq] at hChar

theorem exists_append_of_lt_count {a : Char} {text : List Char} {n : Nat} (h : n < text.count a) :
    ∃ left right, text = left ++ a :: right ∧ left.count a = n := by
  induction text generalizing n with
  | nil => cases h
  | cons b text ih =>
    by_cases hb : b = a
    · subst hb
      cases n with
      | zero => exact ⟨[], text, rfl, rfl⟩
      | succ n =>
        rw [List.count_cons_self] at h
        obtain ⟨left, right, rfl, hCount⟩ := ih (Nat.lt_of_succ_lt_succ h)
        exact ⟨b :: left, right, rfl, by rw [List.count_cons_self, hCount]⟩
    · rw [List.count_cons_of_ne hb] at h
      obtain ⟨left, right, rfl, hCount⟩ := ih h
      exact ⟨b :: left, right, rfl, by rw [List.count_cons_of_ne hb, hCount]⟩

theorem Grammar.Number.read {number : List Char} (h : Number number) (rest : List Char) :
    Value.read (number ++ rest) = readLength (number ++ rest) := by
  obtain ⟨c, more, rfl, hDigit⟩ := h.digit
  rw [List.cons_append, Value.read, if_pos hDigit]

theorem readLength_of_points {number : List Char} (hChars : ∀ c ∈ number, isNumberChar c = true)
    (hPoints : 1 < number.count '.') (rest : List Char) :
    ¬ (readLength (number ++ rest)).Succeeds := by
  have hCount : 1 < ((number ++ rest).takeWhile isNumberChar).count '.' := by
    rw [List.takeWhile_append_of_pos hChars, List.count_append]
    omega
  unfold readLength
  dsimp only
  rw [if_pos hCount]
  exact Reading.not_succeeds_error _

theorem Grammar.Number.readLength_succeeds_iff {number rest : List Char} (h : Number number)
    (hRest : ∀ c ∈ rest.head?, BlockFlow.isNumberChar c = false) :
    (readLength (number ++ rest)).Succeeds ↔
      (BlockFlow.leadingName rest).map Char.toLower = ['p', 'x'] := by
  unfold readLength
  dsimp only
  rw [takeWhile_run h.isNumberChar hRest, dropWhile_run h.isNumberChar hRest,
    if_neg (Nat.not_lt.mpr h.points)]
  split
  · next hUnit => exact iff_of_true ⟨_, _, rfl⟩ hUnit
  · next hUnit => exact iff_of_false (Reading.not_succeeds_error _) hUnit

/-- A number with a second point: it could be completed up to there. -/
theorem atFrontier_of_points {outer number rest : List Char} (hOuter : NumberStarts outer)
    (hDigit : ∃ c more, number = c :: more ∧ c.isDigit = true)
    (hChars : ∀ c ∈ number, isNumberChar c = true)
    (hRest : ∀ c ∈ rest.head?, isNumberChar c = false) (hPoints : 1 < number.count '.') :
    Failure.AtFrontier ⟨.malformedNumber (String.ofList number), number ++ rest, rest⟩ outer .value
      (number ++ rest) := by
  obtain ⟨left, right, rfl, hCount⟩ := exists_append_of_lt_count hPoints
  obtain ⟨c, more, hText, hDigit⟩ := hDigit
  obtain ⟨left, rfl⟩ : ∃ more, left = c :: more := by
    cases left with
    | nil => cases hCount
    | cons d left => exact ⟨left, by rw [(List.cons.inj hText).1]⟩
  have hLeft : ∀ d ∈ c :: left, isNumberChar d = true := fun d hd =>
    hChars d (List.mem_append_left _ hd)
  have hNumber : Number (c :: left) :=
    number_of_chars ⟨c, left, rfl, hDigit⟩ hLeft (Nat.le_of_eq hCount)
  refine ⟨[], c :: left, '.' :: (right ++ rest), by simp, by simp, ⟨?_, ?_, ?_⟩,
    ⟨['p', 'x'], ?_⟩, ?_⟩
  · rwa [List.append_nil]
  · rw [String.toList_ofList, ← List.cons_append, ← List.append_assoc, takeWhile_run hChars hRest]
  · simp
  · exact ⟨_, .length hNumber ⟨List.cons_ne_nil _ _, List.all_eq_true.mp rfl, Ends.cons rfl _⟩ rfl⟩
  · intro d hd more hRead
    obtain rfl := Option.some.inj hd
    have hSecond : 1 < ((c :: left) ++ ['.']).count '.' := by
      rw [List.count_append, hCount]
      decide
    have hRun : ∀ d ∈ (c :: left) ++ ['.'], isNumberChar d = true := by
      intro d hd
      rcases List.mem_append.mp hd with hd | hd
      · exact hLeft d hd
      · rw [List.mem_singleton.mp hd]
        rfl
    refine readLength_of_points hRun hSecond more ?_
    rw [List.append_assoc]
    change (Value.read ((c :: left) ++ '.' :: more)).Succeeds at hRead
    rwa [hNumber.read] at hRead

theorem exists_common_start (unit word : List Char) : ∃ inside left beyond,
    unit = inside ++ beyond ∧ word = inside.map Char.toLower ++ left ∧
      ∀ c ∈ beyond.head?, left.head? ≠ some c.toLower := by
  induction unit generalizing word with
  | nil => exact ⟨[], word, [], rfl, rfl, by rintro _ ⟨⟩⟩
  | cons c unit ih =>
    cases word with
    | nil => exact ⟨[], [], c :: unit, rfl, rfl, by rintro _ _ ⟨⟩⟩
    | cons d word =>
      by_cases hc : c.toLower = d
      · obtain ⟨inside, left, beyond, rfl, rfl, hBeyond⟩ := ih word
        exact ⟨c :: inside, left, beyond, rfl, by rw [← hc]; rfl, hBeyond⟩
      · refine ⟨[], d :: word, c :: unit, rfl, rfl, ?_⟩
        intro e he hHead
        obtain rfl := Option.some.inj he
        exact hc (Option.some.inj hHead).symm

/-- The part of a unit that is right, with what is left of `px` behind it. -/
theorem unit_of_start {inside left next : List Char}
    (hChars : ∀ c ∈ inside, isNameChar c = true)
    (hWord : ['p', 'x'] = inside.map Char.toLower ++ left) (hNext : Ends next) :
    Name (inside ++ left) next ∧ (inside ++ left).map Char.toLower = ['p', 'x'] := by
  have hLeft : ∀ c ∈ left, c = 'p' ∨ c = 'x' := by
    intro c hc
    have hMem : c ∈ ['p', 'x'] := hWord ▸ List.mem_append_right _ hc
    simpa using hMem
  have hSame : left.map Char.toLower = left := by
    rw [← List.map_id' left, List.map_map]
    refine List.map_congr_left fun c hc => ?_
    rcases hLeft c hc with rfl | rfl <;> rfl
  have hLower : (inside ++ left).map Char.toLower = ['p', 'x'] := by
    rw [List.map_append, hSame, ← hWord]
  refine ⟨⟨?_, ?_, hNext⟩, hLower⟩
  · intro hNil
    rw [hNil] at hLower
    cases hLower
  · intro c hc
    rcases List.mem_append.mp hc with hc | hc
    · exact hChars c hc
    · rcases hLeft c hc with rfl | rfl <;> rfl

/-- The part of a unit that is right, with the character behind it that is wrong. -/
theorem unit_ne_of_start {rest inside left beyond more : List Char} {c : Char}
    (hName : leadingName rest = inside ++ beyond)
    (hWord : ['p', 'x'] = inside.map Char.toLower ++ left)
    (hBeyond : ∀ c ∈ beyond.head?, left.head? ≠ some c.toLower)
    (hUnit : (leadingName rest).map Char.toLower ≠ ['p', 'x'])
    (hc : c ∈ (beyond ++ afterName rest).head?) :
    (leadingName (inside ++ c :: more)).map Char.toLower ≠ ['p', 'x'] := by
  have hChars : ∀ c ∈ inside ++ beyond, isNameChar c = true := by
    rw [← hName]
    exact mem_takeWhile isNameChar rest
  have hInside : ∀ d ∈ inside, isNameChar d = true := fun d hd =>
    hChars d (List.mem_append_left _ hd)
  rw [leadingName, List.takeWhile_append_of_pos hInside, List.map_append, hWord]
  intro hMore
  have hMore := List.append_cancel_left hMore
  cases beyond with
  | nil =>
    -- the whole unit was right so far, but it ends before `px` does
    have hEnd : isNameChar c = false := head?_dropWhile isNameChar rest c hc
    rw [List.takeWhile_cons_of_neg (by simp [hEnd])] at hMore
    rw [← hMore, List.map_nil, List.append_nil] at hWord
    rw [List.append_nil] at hName
    exact hUnit (hName ▸ hWord.symm)
  | cons d beyond =>
    obtain rfl := Option.some.inj hc
    have hChar : isNameChar d = true := hChars d (List.mem_append_right _ List.mem_cons_self)
    rw [List.takeWhile_cons_of_pos hChar] at hMore
    exact hBeyond d rfl (by rw [← hMore]; rfl)

/-- A number with a wrong unit: it could be completed as far as the unit is right. -/
theorem atFrontier_of_unit {outer number rest : List Char} (hOuter : NumberStarts outer)
    (hNumber : Number number) (hRest : ∀ c ∈ rest.head?, isNumberChar c = false)
    (hUnit : (leadingName rest).map Char.toLower ≠ ['p', 'x']) :
    Failure.AtFrontier ⟨.unknownUnit (String.ofList ((leadingName rest).map Char.toLower)), rest,
      afterName rest⟩ outer .value (number ++ rest) := by
  obtain ⟨inside, left, beyond, hName, hWord, hBeyond⟩ :=
    exists_common_start (leadingName rest) ['p', 'x']
  have hText : rest = inside ++ (beyond ++ afterName rest) := by
    rw [← List.append_assoc, ← hName, leadingName_append_afterName]
  have hInside : ∀ c ∈ inside, isNameChar c = true := by
    intro c hc
    have hMem : c ∈ leadingName rest := hName ▸ List.mem_append_left _ hc
    exact mem_takeWhile isNameChar rest c hMem
  refine ⟨number, inside, beyond ++ afterName rest, by rw [← hText], hText,
    ⟨⟨outer, number, rfl, hOuter, hNumber⟩, ?_, ?_, ?_⟩, ⟨left, ?_⟩, ?_⟩
  · rwa [← hText]
  · rw [← hText, String.toList_ofList]
  · rw [String.toList_ofList, List.length_map, hName, List.length_append]
    exact Nat.le_add_right _ _
  · have hNext : Ends [';'] := .cons rfl _
    obtain ⟨hName', hLower⟩ := unit_of_start hInside hWord hNext
    rw [List.append_assoc]
    exact ⟨_, .length hNumber hName' hLower⟩
  · intro c hc more hRead
    have hHead : ∀ d ∈ (inside ++ c :: more).head?, isNumberChar d = false := by
      obtain ⟨tail, hTail⟩ := List.head?_eq_some_iff.mp hc
      rw [hTail] at hText
      rw [head?_append_cons inside c more tail, ← hText]
      exact hRest
    change (Value.read (number ++ inside ++ c :: more)).Succeeds at hRead
    rw [List.append_assoc, hNumber.read, hNumber.readLength_succeeds_iff hHead] at hRead
    exact unit_ne_of_start hName hWord hBeyond hUnit hc hRead

theorem Grammar.Channel.digits {text : List Char} {channel : UInt8} (h : Channel text channel) :
    text.length = 2 ∧ ∀ c ∈ text, isHexDigit c = true := by
  obtain ⟨a, b, x, y, rfl, hx, hy, -⟩ := h
  refine ⟨rfl, ?_⟩
  intro c hc
  rcases List.mem_cons.mp hc with rfl | hc
  · rw [isHexDigit, hx]
    rfl
  · rw [isHexDigit, List.mem_singleton.mp hc, hy]
    rfl

theorem channel_of_digits {a b : Char} (ha : isHexDigit a = true)
    (hb : isHexDigit b = true) : ∃ channel, Channel [a, b] channel := by
  obtain ⟨x, hx⟩ := Option.isSome_iff_exists.mp ha
  obtain ⟨y, hy⟩ := Option.isSome_iff_exists.mp hb
  exact ⟨_, a, b, x, y, rfl, hx, hy, rfl⟩

theorem isValue_color {digits : List Char} (hLength : digits.length = 6)
    (hDigits : ∀ c ∈ digits, isHexDigit c = true) (next : List Char) :
    ∃ v, IsValue ('#' :: digits) v next := by
  match digits, hLength with
  | [r, r', g, g', b, b'], _ =>
    obtain ⟨red, hr⟩ := channel_of_digits (hDigits r (by simp)) (hDigits r' (by simp))
    obtain ⟨green, hg⟩ := channel_of_digits (hDigits g (by simp)) (hDigits g' (by simp))
    obtain ⟨blue, hb⟩ := channel_of_digits (hDigits b (by simp)) (hDigits b' (by simp))
    exact ⟨_, .color hr hg hb⟩

theorem readColor_succeeds_iff {text : List Char} : (readColor text).Succeeds ↔
    ∃ digits rest, text = digits ++ rest ∧ digits.length = 6 ∧
      ∀ c ∈ digits, isHexDigit c = true := by
  constructor
  · rintro ⟨v, rest, h⟩
    unfold readColor at h
    split at h
    · next hColor =>
      obtain ⟨r, g, b, red, green, blue, rfl, hr, hg, hb, -⟩ := leadingColor?_eq_some_iff.mp hColor
      refine ⟨_, _, rfl, ?_, ?_⟩
      · rw [List.length_append, List.length_append, hr.digits.1, hg.digits.1, hb.digits.1]
      · intro c hc
        rcases List.mem_append.mp hc with hc | hc
        · rcases List.mem_append.mp hc with hc | hc
          · exact hr.digits.2 c hc
          · exact hg.digits.2 c hc
        · exact hb.digits.2 c hc
    · cases h
  · rintro ⟨digits, rest, rfl, hLength, hDigits⟩
    obtain ⟨v, hValue⟩ := isValue_color hLength hDigits rest
    exact ⟨v, rest, Value.read_eq_ok_iff.mpr ⟨_, rfl, hValue⟩⟩

/-- Text that starts with no color, cut behind the digits that it has among the first six. -/
theorem exists_digits_of_not_color {text : List Char} (h : ¬ (readColor text).Succeeds) :
    ∃ inside beyond, text = inside ++ beyond ∧ (text.take 6).takeWhile isHexDigit = inside ∧
      inside.length < 6 ∧ ∀ c ∈ beyond.head?, isHexDigit c = false := by
  have hTake := List.takeWhile_append_dropWhile (p := isHexDigit) (l := text.take 6)
  have hDigits := mem_takeWhile isHexDigit (text.take 6)
  have hEnd := head?_dropWhile isHexDigit (text.take 6)
  generalize hInside : (text.take 6).takeWhile isHexDigit = inside at hTake hDigits
  generalize (text.take 6).dropWhile isHexDigit = bad at hTake hEnd
  have hLength := congrArg List.length hTake
  rw [List.length_append, List.length_take] at hLength
  have hText : text = inside ++ (bad ++ text.drop 6) := by
    rw [← List.append_assoc, hTake, List.take_append_drop]
  have hLess : inside.length < 6 := by
    refine Nat.lt_of_le_of_ne (by omega) fun hSix => h ?_
    exact readColor_succeeds_iff.mpr ⟨inside, _, hText, hSix, hDigits⟩
  refine ⟨inside, bad ++ text.drop 6, hText, rfl, hLess, ?_⟩
  cases bad with
  | nil =>
    -- the digits end with the text, so that nothing stands behind them
    rw [List.length_nil] at hLength
    rw [List.nil_append, List.drop_eq_nil_of_le (by omega)]
    rintro _ ⟨⟩
  | cons d bad => exact hEnd

theorem not_color_of_digits {inside more : List Char} {c : Char} (hLess : inside.length < 6)
    (hc : isHexDigit c = false) : ¬ (readColor (inside ++ c :: more)).Succeeds := by
  intro h
  obtain ⟨digits, rest, hSplit, hLength, hDigits⟩ := readColor_succeeds_iff.mp h
  have hMem : c ∈ digits := by
    rcases List.append_eq_append_iff.mp hSplit with ⟨middle, rfl, hTail⟩ | ⟨middle, rfl, -⟩
    · cases middle with
      | nil =>
        rw [List.append_nil] at hLength
        omega
      | cons d middle =>
        obtain ⟨rfl, -⟩ := List.cons.inj hTail
        exact List.mem_append_right _ List.mem_cons_self
    · rw [List.length_append] at hLess
      omega
  rw [hDigits c hMem] at hc
  cases hc

/-- A color with less than six digits: it could be completed as far as there are digits. -/
theorem atFrontier_of_color {outer text : List Char} (h : ¬ (readColor text).Succeeds) :
    Failure.AtFrontier (.here .malformedColor text) outer .value ('#' :: text) := by
  obtain ⟨inside, beyond, hText, hInside, hLess, hBeyond⟩ := exists_digits_of_not_color h
  refine ⟨['#'], inside, beyond, by rw [hText]; rfl, hText, ⟨?_, ?_⟩,
    ⟨List.replicate (6 - inside.length) '0', ?_⟩, ?_⟩
  · rw [List.getLast?_append]
    rfl
  · rw [← hText, hInside]
  · have hLength : (inside ++ List.replicate (6 - inside.length) '0').length = 6 := by
      rw [List.length_append, List.length_replicate]
      omega
    refine isValue_color hLength ?_ _
    intro c hc
    rcases List.mem_append.mp hc with hc | hc
    · rw [← hInside] at hc
      exact mem_takeWhile isHexDigit _ c hc
    · rw [List.eq_of_mem_replicate hc]
      rfl
  · intro c hc more hRead
    exact not_color_of_digits hLess (hBeyond c hc) hRead

theorem readLength_atFrontier {outer text : List Char} {failure : Failure}
    (hOuter : NumberStarts outer) (hDigit : ∃ c more, text = c :: more ∧ c.isDigit = true)
    (h : readLength text = .error failure) : failure.AtFrontier outer .value text := by
  obtain ⟨c, more, rfl, hDigit⟩ := hDigit
  have hText := List.takeWhile_append_dropWhile (p := isNumberChar) (l := c :: more)
  have hChars := mem_takeWhile isNumberChar (c :: more)
  have hRest := head?_dropWhile isNumberChar (c :: more)
  have hHead : ∃ d tail, (c :: more).takeWhile isNumberChar = d :: tail ∧ d.isDigit = true := by
    rw [List.takeWhile_cons_of_pos (isNumberChar_of_isDigit hDigit)]
    exact ⟨c, _, rfl, hDigit⟩
  unfold readLength at h
  dsimp only at h
  split at h
  · next hPoints =>
    have hFrontier := atFrontier_of_points hOuter hHead hChars hRest hPoints
    rw [hText] at hFrontier
    exact Except.error.inj h ▸ hFrontier
  · next hPoints =>
    have hNumber := number_of_chars hHead hChars (Nat.le_of_not_lt hPoints)
    split at h
    · cases h
    · next hUnit =>
      have hFrontier := atFrontier_of_unit hOuter hNumber hRest hUnit
      rw [hText] at hFrontier
      exact Except.error.inj h ▸ hFrontier

theorem Value.atFrontier {outer text : List Char} {failure : Failure} (hOuter : NumberStarts outer)
    (h : Value.read text = .error failure) : failure.AtFrontier outer .value text := by
  have hViable : ∃ more, Phrase.value.completes ([] ++ more) := ⟨['a'], _, isValue_a (.cons rfl _)⟩
  unfold Value.read at h
  split at h
  · obtain rfl := Except.error.inj h
    exact .at_end rfl rfl hViable
  · next c more =>
    split at h
    · next hDigit => exact readLength_atFrontier hOuter ⟨c, more, rfl, hDigit⟩ h
    · next hDigit =>
      split at h
      · next hHash =>
        subst hHash
        have hFails : ¬ (readColor more).Succeeds := by
          rw [h]
          exact Reading.not_succeeds_error failure
        unfold readColor at h
        split at h
        · cases h
        · exact Except.error.inj h ▸ atFrontier_of_color hFails
      · next hHash =>
        cases hRead : readName .missingValue (c :: more) with
        | ok p =>
          rw [hRead] at h
          cases h
        | error inner =>
          rw [hRead] at h
          obtain rfl := Except.error.inj h
          obtain ⟨hEnds, rfl⟩ := readName_eq_error_iff.mp hRead
          refine .here [] rfl rfl ⟨hViable, ?_⟩
          intro d hd tail hReads
          obtain rfl := Option.some.inj hd
          have hName : readName .missingValue (c :: tail) = .error _ :=
            readName_eq_error_iff.mpr ⟨.cons (hEnds c rfl) _, rfl⟩
          change (Value.read (c :: tail)).Succeeds at hReads
          rw [Value.read, if_neg hDigit, if_neg hHash, hName] at hReads
          exact Reading.not_succeeds_error _ hReads

end BlockFlow
