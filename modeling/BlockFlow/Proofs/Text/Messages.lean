import BlockFlow.Proofs.Sheet.Tokens
import BlockFlow.Text.TerminalStyle

/-! # The characters of a message

What a message quotes is printable, and so are its own words and its numbers. So the only characters
of a message that are not come from what it takes over from its input without quoting it. Terminal
styling is left out when a message is printed, and that never takes its line end with it.
-/

namespace BlockFlow.Text

/-- Every character of the text is printable or one of those that are allowed. -/
def Shown (allowed : Char → Prop) (s : String) : Prop :=
  ∀ c ∈ s.toList, isPrintable c = true ∨ allowed c

namespace Shown

variable {allowed : Char → Prop} {s t : String}

theorem of_all (h : s.toList.all isPrintable = true) : Shown allowed s :=
  fun c hc => .inl (List.all_eq_true.mp h c hc)

theorem of_mem (h : ∀ c ∈ s.toList, allowed c) : Shown allowed s :=
  fun c hc => .inr (h c hc)

theorem append (hs : Shown allowed s) (ht : Shown allowed t) : Shown allowed (s ++ t) := by
  intro c hc
  rw [String.toList_append] at hc
  exact (List.mem_append.mp hc).elim (hs c) (ht c)

theorem join {ss : List String} (h : ∀ s ∈ ss, Shown allowed s) :
    Shown allowed (String.join ss) := by
  intro c hc
  rw [String.toList_join] at hc
  obtain ⟨s, hs, hc⟩ := List.mem_flatMap.mp hc
  exact h s hs c hc

theorem intercalate (hs : Shown allowed s) {ss : List String} (h : ∀ t ∈ ss, Shown allowed t) :
    Shown allowed (s.intercalate ss) := by
  induction ss with
  | nil => exact of_all rfl
  | cons t ss ih =>
    obtain ⟨ht, hRest⟩ := List.forall_mem_cons.mp h
    cases ss with
    | nil =>
      rw [String.intercalate_singleton]
      exact ht
    | cons u ss =>
      rw [String.intercalate_cons_cons]
      exact (ht.append hs).append (ih hRest)

end Shown

/-! ## Quoted text and numbers -/

theorem isPrintable_of_mem_hex {width n : Nat} {c : Char} (h : c ∈ hex width n) :
    isPrintable c = true := by
  have hDigit : ∀ i : Fin 16, isPrintable (Nat.digitChar i) = true := by decide
  induction width generalizing n with
  | zero => cases h
  | succ width ih =>
    rcases List.mem_append.mp h with h | h
    · exact ih h
    · obtain rfl := List.mem_singleton.mp h
      exact hDigit ⟨n % 16, Nat.mod_lt n (by decide)⟩

theorem isPrintable_of_mem_escapeCodePoint {c d : Char} (h : d ∈ escapeCodePoint c) :
    isPrintable d = true := by
  have hEscape (letter : Char) (hLetter : isPrintable letter = true) (width : Nat)
      (h : d ∈ '\\' :: letter :: hex width c.toNat) : isPrintable d = true := by
    rcases List.mem_cons.mp h with rfl | h
    · rfl
    · rcases List.mem_cons.mp h with rfl | h
      · exact hLetter
      · exact isPrintable_of_mem_hex h
  unfold escapeCodePoint at h
  dsimp only at h
  split at h
  · exact hEscape 'x' rfl 2 h
  · split at h
    · exact hEscape 'u' rfl 4 h
    · exact hEscape 'U' rfl 8 h

theorem isPrintable_of_mem_quoteChar {mark c d : Char} (hMark : isPrintable mark = true)
    (h : d ∈ quoteChar mark c) : isPrintable d = true := by
  have hPair (e : Char) (he : isPrintable e = true) (h : d ∈ ['\\', e]) :
      isPrintable d = true := by
    rcases List.mem_cons.mp h with rfl | h
    · rfl
    · rwa [List.mem_singleton.mp h]
  unfold quoteChar at h
  split at h
  · next hc =>
    rcases hc with rfl | rfl
    · exact hPair c hMark h
    · exact hPair '\\' rfl h
  · split at h
    · exact hPair 't' rfl h
    · split at h
      · exact hPair 'n' rfl h
      · split at h
        · exact hPair 'r' rfl h
        · split at h
          · next hc => rwa [List.mem_singleton.mp h]
          · exact isPrintable_of_mem_escapeCodePoint h

theorem isPrintable_quotationMark (text : List Char) : isPrintable (quotationMark text) = true := by
  unfold quotationMark
  split <;> rfl

theorem shown_quote {allowed : Char → Prop} (s : String) : Shown allowed (quote s) := by
  intro c hc
  left
  have hMark := isPrintable_quotationMark s.toList
  rw [quote, String.toList_ofList, quoteChars] at hc
  rcases List.mem_append.mp hc with hc | hc
  · rcases List.mem_cons.mp hc with rfl | hc
    · exact hMark
    · obtain ⟨d, -, hc⟩ := List.mem_flatMap.mp hc
      exact isPrintable_of_mem_quoteChar hMark hc
  · rwa [List.mem_singleton.mp hc]

theorem shown_toString {allowed : Char → Prop} (n : Nat) : Shown allowed (toString n) := by
  intro c hc
  left
  rw [Nat.toString_eq_repr, Nat.toList_repr] at hc
  have hDigit := Nat.isDigit_of_mem_toDigits (by decide) (by decide) hc
  obtain ⟨hLow, hHigh⟩ := (isDigit_iff c).mp hDigit
  exact isPrintable_of_ascii (by omega) (by omega)

theorem shown_toString_int {allowed : Char → Prop} (n : Int) : Shown allowed (toString n) := by
  rw [Int.toString_eq_repr, Int.repr_eq_if]
  split
  · exact shown_toString _
  · exact (Shown.of_all rfl).append (shown_toString _)

/-! ## Texts that are taken over -/

/-- The message shows each of the texts as it is, and what else it shows is printable. -/
structure TakesOver (taken : List String) (message : String) : Prop where
  shown : Shown (fun c => ∃ s ∈ taken, c ∈ s.toList) message
  subset : ∀ s ∈ taken, s.toList ⊆ message.toList

namespace TakesOver

variable {taken : List String} {message words : String}

theorem of_shown (h : ∀ allowed, Shown allowed message) : TakesOver [] message :=
  ⟨h _, fun _ hs => absurd hs List.not_mem_nil⟩

theorem self (s : String) : TakesOver [s] s :=
  ⟨.of_mem fun _ hc => ⟨s, List.mem_singleton_self s, hc⟩,
    fun _ ht => List.mem_singleton.mp ht ▸ List.Subset.refl _⟩

theorem behind (h : TakesOver taken message) (hWords : ∀ allowed, Shown allowed words) :
    TakesOver taken (words ++ message) := by
  refine ⟨(hWords _).append h.shown, fun s hs c hc => ?_⟩
  rw [String.toList_append]
  exact List.mem_append_right _ (h.subset s hs hc)

theorem before (h : TakesOver taken message) (hWords : ∀ allowed, Shown allowed words) :
    TakesOver taken (message ++ words) := by
  refine ⟨h.shown.append (hWords _), fun s hs c hc => ?_⟩
  rw [String.toList_append]
  exact List.mem_append_left _ (h.subset s hs hc)

theorem subset_intercalate (separator : String) {ss : List String} {s : String} (hs : s ∈ ss) :
    s.toList ⊆ (separator.intercalate ss).toList := by
  induction ss with
  | nil => cases hs
  | cons t ss ih =>
    cases ss with
    | nil =>
      rw [String.intercalate_singleton, List.mem_singleton.mp hs]
      exact List.Subset.refl _
    | cons u ss =>
      intro c hc
      rw [String.intercalate_cons_cons, String.toList_append, String.toList_append]
      rcases List.mem_cons.mp hs with rfl | hs
      · exact List.mem_append_left _ (List.mem_append_left _ hc)
      · exact List.mem_append_right _ (ih hs hc)

theorem intercalate {separator : String} (hSeparator : ∀ allowed, Shown allowed separator)
    (taken : List String) : TakesOver taken (separator.intercalate taken) :=
  ⟨(hSeparator _).intercalate fun s hs => .of_mem fun _ hc => ⟨s, hs, hc⟩,
    fun _ hs => subset_intercalate separator hs⟩

/-- The line feed is not printable, so a message has one only from what it takes over. -/
theorem newline_mem_iff (h : TakesOver taken message) :
    '\n' ∈ message.toList ↔ ∃ s ∈ taken, '\n' ∈ s.toList := by
  constructor
  · intro hMem
    have hControl : isPrintable '\n' = false := isPrintable_eq_false_of_control (by decide)
    rcases h.shown _ hMem with hPrintable | hTaken
    · rw [hControl] at hPrintable
      cases hPrintable
    · exact hTaken
  · rintro ⟨s, hs, hMem⟩
    exact h.subset s hs hMem

end TakesOver

/-! ## Terminal styling -/

theorem afterStyle?_suffix {text rest : List Char} (h : afterStyle? text = some rest) :
    rest <:+ text := by
  have hDrop : text.dropWhile isStyleParameter <:+ text := List.dropWhile_suffix _
  unfold afterStyle? at h
  split at h
  · next c more hText =>
    rw [hText] at hDrop
    obtain ⟨-, hRest⟩ := Option.ite_none_right_eq_some.mp h
    obtain rfl := Option.some.inj hRest
    exact (List.suffix_cons _ _).trans hDrop
  · cases h

theorem afterStyle?_newline (text : List Char) :
    afterStyle? (text ++ ['\n']) = (afterStyle? text).map (· ++ ['\n']) := by
  unfold afterStyle?
  rw [dropWhile_concat rfl]
  cases text.dropWhile isStyleParameter with
  | nil => rfl
  | cons c rest =>
    dsimp only [List.cons_append]
    split
    · rfl
    · rfl

theorem withoutStyles_subset (text : List Char) : withoutStyles text ⊆ text := by
  fun_induction withoutStyles text with
  | case1 => exact List.Subset.refl _
  | case2 body rest hStyle ih =>
    intro c hc
    exact List.mem_cons_of_mem _ (List.mem_cons_of_mem _ ((afterStyle?_suffix hStyle).mem (ih hc)))
  | case3 body hNone ih => exact List.cons_subset_cons _ ih
  | case4 c rest hPlain ih => exact List.cons_subset_cons _ ih

/-- A control sequence begins with an escape. -/
theorem withoutStyles_eq_self {text : List Char} (h : '\x1b' ∉ text) :
    withoutStyles text = text := by
  fun_induction withoutStyles text with
  | case1 => rfl
  | case2 body rest hStyle ih => exact absurd List.mem_cons_self h
  | case3 body hNone ih => exact absurd List.mem_cons_self h
  | case4 c rest hPlain ih => rw [ih fun hMem => h (List.mem_cons_of_mem c hMem)]

theorem newline_mem_afterStyle? {text rest : List Char} (h : afterStyle? text = some rest) :
    '\n' ∈ rest ↔ '\n' ∈ text := by
  have hText := List.takeWhile_append_dropWhile (p := isStyleParameter) (l := text)
  have hParameters : '\n' ∉ text.takeWhile isStyleParameter := fun hMem =>
    nomatch mem_takeWhile isStyleParameter text _ hMem
  unfold afterStyle? at h
  split at h
  · next c more hDrop =>
    obtain ⟨hAlpha, hRest⟩ := Option.ite_none_right_eq_some.mp h
    obtain rfl := Option.some.inj hRest
    have hNe : '\n' ≠ c := by
      rintro rfl
      cases hAlpha
    rw [← hText, hDrop, List.mem_append, List.mem_cons]
    simp only [hParameters, hNe, false_or]
  · cases h

/-- No control sequence has a line feed in it. -/
theorem newline_mem_withoutStyles (text : List Char) :
    '\n' ∈ withoutStyles text ↔ '\n' ∈ text := by
  fun_induction withoutStyles text with
  | case1 => exact Iff.rfl
  | case2 body rest hStyle ih =>
    rw [ih, newline_mem_afterStyle? hStyle]
    simp
  | case3 body hNone ih => simp [ih]
  | case4 c rest hPlain ih => rw [List.mem_cons, List.mem_cons, ih]

theorem withoutStyles_newline (text : List Char) :
    withoutStyles (text ++ ['\n']) = withoutStyles text ++ ['\n'] := by
  fun_induction withoutStyles text with
  | case1 => simp [withoutStyles]
  | case2 body rest hStyle ih =>
    have hStyle' : afterStyle? (body ++ ['\n']) = some (rest ++ ['\n']) := by
      rw [afterStyle?_newline, hStyle]
      rfl
    rw [List.cons_append, List.cons_append, withoutStyles]
    split
    · next hSome =>
      obtain rfl := Option.some.inj (hStyle'.symm.trans hSome)
      exact ih
    · next hNone => cases hStyle'.symm.trans hNone
  | case3 body hNone ih =>
    have hStyle' : afterStyle? (body ++ ['\n']) = none := by
      rw [afterStyle?_newline, hNone]
      rfl
    rw [List.cons_append, List.cons_append, withoutStyles]
    split
    · next hSome => cases hStyle'.symm.trans hSome
    · exact congrArg _ ih
  | case4 c rest hPlain ih =>
    rw [List.cons_append, withoutStyles, ih, List.cons_append]
    intro body hEscape hBody
    cases rest with
    | nil => cases hBody
    | cons d rest => exact hPlain rest hEscape (congrArg (· :: rest) (List.cons.inj hBody).1)

end BlockFlow.Text
