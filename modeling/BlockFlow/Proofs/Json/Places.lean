import BlockFlow.Json.Reader

/-! # Where a JSON text is malformed

Readers leave an end of the text, and a malformation points at one. So what is reported of its place
is the line, the column and the number of the characters that come before.
-/

namespace BlockFlow.Json

/-- What is left is an end of the text, and so is what a malformation points at. -/
def Reading.Within {α : Type} {bound : Nat} (text : List Char) : Reading α bound → Prop
  | .ok t => t.rest <:+ text
  | .error (.malformed _ rest) => rest <:+ text
  | .error (.beyond _) => True

namespace Reading.Within

variable {α β : Type} {m n : Nat} {text outer : List Char} {r : Reading α m}

theorem mono (h : r.Within text) (hText : text <:+ outer) : r.Within outer := by
  unfold Within at h ⊢
  split
  · exact List.IsSuffix.trans h hText
  · exact List.IsSuffix.trans h hText
  · trivial

theorem map {f : Taken α m → Taken β n} (hf : ∀ t, (f t).rest = t.rest)
    (h : r.Within text) : Within text (r.map f) := by
  cases r with
  | ok t =>
    change (f t).rest <:+ text
    rw [hf]
    exact h
  | error e => cases e <;> exact h

theorem bind {k : Taken α m → Reading β n} (h : r.Within text)
    (hk : ∀ t, t.rest <:+ text → (k t).Within text) : Within text (r >>= k) := by
  cases r with
  | ok t => exact hk t h
  | error e => cases e <;> exact h

end Reading.Within

open Reading (Within)

variable {text start : List Char}

theorem skipGap_suffix (text : List Char) : skipGap text <:+ text := List.dropWhile_suffix _

/-! ## Strings -/

theorem readCodeUnit_within (text : List Char) : (readCodeUnit text).Within ('u' :: text) := by
  unfold readCodeUnit
  split
  · next a b c d e rest =>
    split
    · exact ⟨['u', a, b, c, d], rfl⟩
    · exact List.suffix_rfl
  · exact List.suffix_rfl

theorem readCodePoint_within (text : List Char) : (readCodePoint text).Within ('u' :: text) := by
  unfold readCodePoint
  refine (readCodeUnit_within text).bind fun first hFirst => ?_
  split
  · split
    · next rest hRest =>
      have hSecond : 'u' :: rest <:+ 'u' :: text :=
        (List.suffix_cons _ _).trans (hRest ▸ hFirst)
      refine ((readCodeUnit_within rest).mono hSecond).bind fun second hSecond => ?_
      split
      · exact hSecond
      · trivial
    · trivial
  · split
    · trivial
    · exact hFirst

theorem readEscape_within (h : '\\' :: text <:+ start) : (readEscape start text).Within start := by
  have hText : text <:+ start := (List.suffix_cons _ _).trans h
  unfold readEscape
  split
  · exact List.suffix_rfl
  · exact ((readCodePoint_within _).mono hText).map fun _ => rfl
  · split
    · exact (List.suffix_cons _ _).trans hText
    · exact h

theorem readString_within (h : text <:+ start) : (readString start text).Within start := by
  fun_induction readString start text with
  | case1 => exact List.suffix_rfl
  | case2 rest => exact (List.suffix_cons _ _).trans h
  | case3 rest ih =>
    refine (readEscape_within h).bind fun c hc => ?_
    exact (ih c hc).bind fun s hs => hs
  | case4 c rest hQuote hEscape hControl => exact h
  | case5 c rest hQuote hEscape hControl ih =>
    exact (ih ((List.suffix_cons _ _).trans h)).bind fun s hs => hs

/-! ## Numbers and words -/

theorem suffix_of_readDigits? {t : Taken (List Char) text.length}
    (h : readDigits? text = some t) : t.rest <:+ text := by
  unfold readDigits? at h
  split at h
  · cases h
  · split at h
    · obtain rfl := Option.some.inj h
      exact (List.dropWhile_suffix _).trans (List.suffix_cons _ _)
    · cases h

theorem suffix_of_readWhole? {t : Taken (List Char) text.length}
    (h : readWhole? text = some t) : t.rest <:+ text := by
  unfold readWhole? at h
  split at h
  · obtain rfl := Option.some.inj h
    exact List.suffix_cons _ _
  · exact suffix_of_readDigits? h

theorem suffix_of_readFraction? {t : Taken (List Char) text.length}
    (h : readFraction? text = some t) : t.rest <:+ text := by
  unfold readFraction? at h
  split at h
  · obtain ⟨digits, hDigits, rfl⟩ := Option.map_eq_some_iff.mp h
    exact (suffix_of_readDigits? hDigits).trans (List.suffix_cons _ _)
  · cases h

theorem suffix_of_readSigned? {t : Taken Int text.length} (h : readSigned? text = some t) :
    t.rest <:+ text := by
  unfold readSigned? at h
  dsimp only at h
  split at h
  all_goals obtain ⟨digits, hDigits, rfl⟩ := Option.map_eq_some_iff.mp h
  · exact (suffix_of_readDigits? hDigits).trans (List.suffix_cons _ _)
  · exact (suffix_of_readDigits? hDigits).trans (List.suffix_cons _ _)
  · exact suffix_of_readDigits? hDigits

theorem suffix_of_readPower? {t : Taken Int text.length} (h : readPower? text = some t) :
    t.rest <:+ text := by
  unfold readPower? at h
  split at h
  · split at h
    · obtain ⟨power, hPower, rfl⟩ := Option.map_eq_some_iff.mp h
      exact (suffix_of_readSigned? hPower).trans (List.suffix_cons _ _)
    · cases h
  · cases h

theorem optional_suffix {α : Type} {read? : Option (Taken α text.length)}
    (h : ∀ t, read? = some t → t.rest <:+ text) : (Taken.optional text read?).rest <:+ text := by
  cases read? with
  | none => exact List.suffix_rfl
  | some t => exact h t rfl

theorem readUnsigned_within (negative : Bool) (h : text <:+ start) :
    (readUnsigned start negative text).Within start := by
  unfold readUnsigned
  split
  · exact List.suffix_rfl
  · next whole hWhole =>
    have hFraction : (Taken.optional whole.rest (readFraction? whole.rest)).rest <:+ whole.rest :=
      optional_suffix fun _ => suffix_of_readFraction?
    have hPower (ahead : List Char) : (Taken.optional ahead (readPower? ahead)).rest <:+ ahead :=
      optional_suffix fun _ => suffix_of_readPower?
    have hRest := (((hPower _).trans hFraction).trans (suffix_of_readWhole? hWhole)).trans h
    dsimp only
    split
    · exact hRest
    · split
      · exact hRest
      · trivial

theorem readScalar_within (text : List Char) : (readScalar text).Within text := by
  unfold readScalar readWord?
  split
  · next word hWord =>
    split at hWord
    · obtain rfl := Option.some.inj hWord
      exact List.drop_suffix _ _
    · cases hWord
  · unfold readNumber
    split
    · exact (readUnsigned_within true (List.suffix_cons _ _)).map fun _ => rfl
    · exact readUnsigned_within false List.suffix_rfl

/-! ## Values -/

theorem suffix_of_readMark? {mark : Char} {t : Taken Unit text.length}
    (h : readMark? mark text = some t) : t.rest <:+ text := by
  unfold readMark? at h
  split at h
  · next c rest hText =>
    split at h
    · obtain rfl := Option.some.inj h
      exact (List.suffix_cons c rest).trans (hText ▸ skipGap_suffix text)
    · cases h
  · cases h

theorem readSeparator_within (close : Char) (text : List Char) :
    (readSeparator close text).Within text := by
  unfold readSeparator
  split
  · next closed hClosed => exact suffix_of_readMark? hClosed
  · split
    · next comma hComma => exact suffix_of_readMark? hComma
    · exact skipGap_suffix text

theorem within_readers :
    (∀ text, (readValue text).Within text) ∧ (∀ text, (readMembers text).Within text) ∧
      (∀ text, (readMember text).Within text) ∧ ∀ text, (readItems text).Within text := by
  apply readValue.mutual_induct
  -- a value: a string, an array or an object that is empty or that has something in it, a scalar
  case case1 =>
    intro rest
    rw [readValue]
    exact (readString_within (List.suffix_cons _ _)).bind fun s hs => hs
  case case2 | case4 =>
    intro rest closed hClosed
    rw [readValue, hClosed]
    exact (suffix_of_readMark? hClosed).trans (List.suffix_cons _ _)
  case case3 | case5 =>
    intro rest hOpen ih
    rw [readValue, hOpen]
    exact (ih.mono (List.suffix_cons _ _)).map fun _ => rfl
  case case6 =>
    intro text hString hArray hObject
    unfold readValue
    split
    · exact absurd rfl (hString _)
    · exact absurd rfl (hArray _)
    · exact absurd rfl (hObject _)
    · exact readScalar_within _
  -- the members of an object
  case case7 =>
    intro text ihMember ihMembers
    rw [readMembers]
    refine (ihMember.mono (skipGap_suffix text)).bind fun member hMember => ?_
    refine ((readSeparator_within _ member.rest).mono hMember).bind fun separator hSeparator => ?_
    dsimp only
    split
    · exact ((ihMembers member separator).mono hSeparator).bind fun members hMembers => hMembers
    · exact hSeparator
  -- a member, with its name or without
  case case8 =>
    intro rest ih
    rw [readMember]
    refine (readString_within (List.suffix_cons _ _)).bind fun name hName => ?_
    dsimp only
    split
    · next colon hColon =>
      have hRest := ((skipGap_suffix _).trans (suffix_of_readMark? hColon)).trans hName
      exact ((ih name colon).mono hRest).bind fun value hValue => hValue
    · exact (skipGap_suffix _).trans hName
  case case9 =>
    intro text hName
    unfold readMember
    split
    · exact absurd rfl (hName _)
    · exact List.suffix_rfl
  -- the items of an array
  case case10 =>
    intro text ihItem ihItems
    rw [readItems]
    refine (ihItem.mono (skipGap_suffix text)).bind fun item hItem => ?_
    refine ((readSeparator_within _ item.rest).mono hItem).bind fun separator hSeparator => ?_
    dsimp only
    split
    · exact ((ihItems item separator).mono hSeparator).bind fun items hItems => hItems
    · exact hSeparator

/-- A malformation is at a place in the text, so that something of the text comes before it. -/
theorem suffix_of_parse {m : Malformation} {rest : List Char}
    (h : parse text = .error (.malformed m rest)) : rest <:+ text := by
  unfold parse at h
  split at h
  · cases h
    exact List.suffix_rfl
  · have hValue := (within_readers.1 (skipGap text)).mono (skipGap_suffix text)
    cases hRead : readValue (skipGap text) with
    | error e =>
      rw [hRead] at h hValue
      cases h
      exact hValue
    | ok value =>
      rw [hRead] at h hValue
      dsimp only [bind, Except.bind] at h
      split at h
      · cases h
      · cases h
        exact (skipGap_suffix _).trans hValue

end BlockFlow.Json
