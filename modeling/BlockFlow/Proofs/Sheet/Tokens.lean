import BlockFlow.Proofs.Sheet.Grammar
import Mathlib.Data.List.TakeDrop

/-! # Reading names, marks and values

What the readers of the smallest units accept, stated against the grammar: a reader succeeds exactly
if the text starts with something that its production derives, and then leaves the rest of it.
-/

namespace BlockFlow

open Grammar

/-! ## Readings in sequence -/

namespace Reading

variable {α β γ : Type}

theorem map_id (r : Reading α) : r.map (fun a => a) = r := by
  cases r <;> rfl

theorem map_map (r : Reading α) (f : α → β) (g : β → γ) : (r.map f).map g = r.map (g ∘ f) := by
  cases r <;> rfl

theorem map_eq_ok_iff {f : α → β} {r : Reading α} {b : β} {rest : List Char} :
    r.map f = .ok (b, rest) ↔ ∃ a, r = .ok (a, rest) ∧ b = f a := by
  constructor
  · intro h
    cases r with
    | error failure => cases h
    | ok p =>
      obtain ⟨rfl, rfl⟩ := Prod.mk.inj (Except.ok.inj h)
      exact ⟨p.1, rfl, rfl⟩
  · rintro ⟨a, rfl, rfl⟩
    rfl

theorem andThen_eq_ok_iff {r : Reading α} {k : α → List Char → Reading β} {b : β}
    {rest : List Char} :
    r.andThen k = .ok (b, rest) ↔ ∃ a more, r = .ok (a, more) ∧ k a more = .ok (b, rest) := by
  constructor
  · intro h
    cases r with
    | error failure => cases h
    | ok p => exact ⟨p.1, p.2, rfl, h⟩
  · rintro ⟨a, more, rfl, h⟩
    exact h

end Reading

/-! ## Characters -/

theorem isNameChar_iff (c : Char) : isNameChar c = true ↔
    (48 ≤ c.toNat ∧ c.toNat ≤ 57) ∨ (65 ≤ c.toNat ∧ c.toNat ≤ 90) ∨
      (97 ≤ c.toNat ∧ c.toNat ≤ 122) ∨ c.toNat = 45 ∨ c.toNat = 95 := by
  have hHyphen : c = '-' ↔ c.toNat = 45 := Char.toNat_inj.symm
  have hLine : c = '_' ↔ c.toNat = 95 := Char.toNat_inj.symm
  have hLetter : c.isAlpha = (decide ('A'.val ≤ c.val ∧ c.val ≤ 'Z'.val) ||
    (decide ('a'.val ≤ c.val) && decide (c.val ≤ 'z'.val))) := rfl
  simp only [isNameChar, Char.isAlphanum, hLetter, Char.isDigit, Bool.or_eq_true,
    Bool.and_eq_true, decide_eq_true_eq, beq_iff_eq, hHyphen, hLine, ge_iff_le,
    UInt32.le_iff_toNat_le]
  change ((((65 ≤ c.toNat ∧ c.toNat ≤ 90) ∨ 97 ≤ c.toNat ∧ c.toNat ≤ 122) ∨
    48 ≤ c.toNat ∧ c.toNat ≤ 57) ∨ c.toNat = 45) ∨ c.toNat = 95 ↔ _
  omega

theorem isDigit_iff (c : Char) : c.isDigit = true ↔ 48 ≤ c.toNat ∧ c.toNat ≤ 57 :=
  Char.isDigit_iff_toNat

theorem isNameChar_of_isDigit {c : Char} (h : c.isDigit = true) : isNameChar c = true := by
  rw [isNameChar_iff]
  rw [isDigit_iff] at h
  omega

theorem isBlank_eq_false_of_isNameChar {c : Char} (h : isNameChar c = true) :
    Text.isBlank c = false := by
  rw [isNameChar_iff] at h
  apply Bool.eq_false_iff.mpr
  intro hBlank
  simp only [Text.isBlank, Bool.or_eq_true, Bool.and_eq_true, decide_eq_true_eq,
    beq_iff_eq] at hBlank
  omega

theorem isNameChar_eq_false_of_isBlank {c : Char} (h : Text.isBlank c = true) :
    isNameChar c = false := by
  apply Bool.eq_false_iff.mpr
  intro hName
  rw [isBlank_eq_false_of_isNameChar hName] at h
  cases h

/-! ## Runs of characters of a kind -/

section Runs

variable {test : Char → Bool} {run rest text : List Char}

theorem dropWhile_eq_self (h : ∀ c ∈ rest.head?, test c = false) : rest.dropWhile test = rest := by
  cases rest with
  | nil => rfl
  | cons c rest => rw [List.dropWhile_cons_of_neg (by simp [h c rfl])]

theorem takeWhile_eq_nil (h : ∀ c ∈ rest.head?, test c = false) : rest.takeWhile test = [] := by
  cases rest with
  | nil => rfl
  | cons c rest => rw [List.takeWhile_cons_of_neg (by simp [h c rfl])]

theorem takeWhile_run (hRun : ∀ c ∈ run, test c = true) (hRest : ∀ c ∈ rest.head?, test c = false) :
    (run ++ rest).takeWhile test = run := by
  rw [List.takeWhile_append_of_pos hRun, takeWhile_eq_nil hRest, List.append_nil]

theorem dropWhile_run (hRun : ∀ c ∈ run, test c = true) (hRest : ∀ c ∈ rest.head?, test c = false) :
    (run ++ rest).dropWhile test = rest := by
  rw [List.dropWhile_append_of_pos hRun, dropWhile_eq_self hRest]

theorem takeWhile_concat {c : Char} (hc : test c = false) (text : List Char) :
    (text ++ [c]).takeWhile test = text.takeWhile test := by
  induction text with
  | nil => simp [hc]
  | cons d text ih => simp [List.takeWhile_cons, ih]

theorem dropWhile_concat {c : Char} (hc : test c = false) (text : List Char) :
    (text ++ [c]).dropWhile test = text.dropWhile test ++ [c] := by
  induction text with
  | nil => simp [hc]
  | cons d text ih =>
    rw [List.cons_append, List.dropWhile_cons, List.dropWhile_cons, ih]
    split
    · rfl
    · rfl

theorem head?_dropWhile (test : Char → Bool) (text : List Char) :
    ∀ c ∈ (text.dropWhile test).head?, test c = false := by
  intro c hc
  have h := List.head?_dropWhile_not test text
  rw [Option.mem_def.mp hc] at h
  exact h

theorem mem_takeWhile (test : Char → Bool) (text : List Char) :
    ∀ c ∈ text.takeWhile test, test c = true :=
  List.all_eq_true.mp List.all_takeWhile

theorem head?_append_of_head? {next next' : List Char} (h : next'.head? = next.head?)
    (text : List Char) : (text ++ next').head? = (text ++ next).head? := by
  rw [List.head?_append, List.head?_append, h]

theorem head?_append_cons (text : List Char) (c : Char) (left right : List Char) :
    (text ++ c :: left).head? = (text ++ c :: right).head? := by
  rw [List.head?_append, List.head?_append]
  rfl

end Runs

/-! ## Blanks -/

theorem Grammar.Blanks.nil : Blanks [] := by
  intro c hc
  cases hc

theorem Grammar.Blanks.space : Blanks [' '] := by
  intro c hc
  rw [List.mem_singleton.mp hc]
  rfl

theorem Grammar.Blanks.append {left right : List Char} (hl : Blanks left) (hr : Blanks right) :
    Blanks (left ++ right) := by
  intro c hc
  rcases List.mem_append.mp hc with hc | hc
  · exact hl c hc
  · exact hr c hc

theorem skipBlanks_eq_iff {text rest : List Char} : Text.skipBlanks text = rest ↔
    (∃ blanks, text = blanks ++ rest ∧ Blanks blanks) ∧ ∀ c ∈ rest.head?, Text.isBlank c = false := by
  constructor
  · rintro rfl
    refine ⟨⟨text.takeWhile Text.isBlank, ?_, mem_takeWhile _ _⟩, head?_dropWhile _ _⟩
    exact List.takeWhile_append_dropWhile.symm
  · rintro ⟨⟨blanks, rfl, hBlanks⟩, hRest⟩
    exact dropWhile_run hBlanks hRest

theorem skipBlanks_append_mark {blanks rest : List Char} {mark : Char} (hBlanks : Blanks blanks)
    (hMark : Text.isBlank mark = false) :
    Text.skipBlanks (blanks ++ mark :: rest) = mark :: rest := by
  refine skipBlanks_eq_iff.mpr ⟨⟨blanks, rfl, hBlanks⟩, ?_⟩
  intro c hc
  obtain rfl := Option.some.inj hc
  exact hMark

/-! ## Names and marks -/

/-- No name goes on in a text. -/
def Grammar.Ends (next : List Char) : Prop := ∀ c ∈ next.head?, isNameChar c = false

theorem Grammar.Ends.nil : Ends [] := by
  intro c hc
  cases hc

theorem Grammar.Ends.cons {c : Char} (hc : isNameChar c = false) (more : List Char) :
    Ends (c :: more) := by
  intro d hd
  obtain rfl := Option.some.inj hd
  exact hc

theorem Grammar.Ends.behind {blanks next : List Char} (hBlanks : Blanks blanks) (h : Ends next) :
    Ends (blanks ++ next) := by
  cases blanks with
  | nil => exact h
  | cons c blanks => exact .cons (isNameChar_eq_false_of_isBlank (hBlanks c List.mem_cons_self)) _

theorem Grammar.Name.of_ends {name next next' : List Char} (h : Name name next)
    (hNext : Ends next') : Name name next' :=
  ⟨h.nonempty, h.chars, hNext⟩

theorem Grammar.Name.of_head {name next next' : List Char} (h : Name name next)
    (hHead : next'.head? = next.head?) : Name name next' :=
  ⟨h.nonempty, h.chars, hHead ▸ h.maximal⟩

theorem Grammar.Name.leadingName {name next : List Char} (h : Name name next) :
    leadingName (name ++ next) = name :=
  takeWhile_run h.chars h.maximal

theorem Grammar.Name.afterName {name next : List Char} (h : Name name next) :
    afterName (name ++ next) = next :=
  dropWhile_run h.chars h.maximal

theorem name_leadingName {text : List Char} (h : leadingName text ≠ []) :
    Name (leadingName text) (afterName text) :=
  ⟨h, mem_takeWhile _ _, head?_dropWhile _ _⟩

theorem readName_eq_ok_iff {missing : Fault} {text rest : List Char} {name : String} :
    readName missing text = .ok (name, rest) ↔
      ∃ chars, text = chars ++ rest ∧ Name chars rest ∧ name = String.ofList chars := by
  constructor
  · intro h
    unfold readName at h
    split at h
    · cases h
    · next hne =>
      obtain ⟨rfl, rfl⟩ := Prod.mk.inj (Except.ok.inj h)
      exact ⟨_, (leadingName_append_afterName text).symm, name_leadingName hne, rfl⟩
  · rintro ⟨chars, rfl, hName, rfl⟩
    unfold readName
    rw [hName.leadingName, hName.afterName]
    split
    · exact absurd rfl hName.nonempty
    · rfl

theorem readMark_eq_ok_iff {mark : Char} {missing : Fault} {text rest : List Char} {u : Unit} :
    readMark mark missing text = .ok (u, rest) ↔ text = mark :: rest := by
  constructor
  · intro h
    unfold readMark at h
    split at h
    · split at h
      · next hc => rw [hc, (Prod.mk.inj (Except.ok.inj h)).2]
      · cases h
    · cases h
  · rintro rfl
    simp [readMark]

theorem readMark_skipBlanks_eq_ok_iff {mark : Char} (hMark : Text.isBlank mark = false)
    {missing : Fault} {text rest : List Char} {u : Unit} :
    readMark mark missing (Text.skipBlanks text) = .ok (u, rest) ↔
      ∃ blanks, text = blanks ++ mark :: rest ∧ Blanks blanks := by
  rw [readMark_eq_ok_iff, skipBlanks_eq_iff]
  simp [hMark]

/-! ## Values -/

theorem isNumberChar_iff (c : Char) :
    isNumberChar c = true ↔ (48 ≤ c.toNat ∧ c.toNat ≤ 57) ∨ c.toNat = 46 := by
  have hPoint : c = '.' ↔ c.toNat = 46 := Char.toNat_inj.symm
  rw [isNumberChar, Bool.or_eq_true, isDigit_iff, beq_iff_eq, hPoint]

theorem toLower_of_isNumberChar {c : Char} (h : isNumberChar c = true) : c.toLower = c := by
  rw [isNumberChar_iff] at h
  apply dif_neg
  intro hUpper
  have hLow : 65 ≤ c.toNat := UInt32.le_iff_toNat_le.mp hUpper.1
  omega

theorem isNumberChar_head_of_unit {unit : List Char} (h : unit.map Char.toLower = ['p', 'x'])
    (next : List Char) :
    ∀ c ∈ (unit ++ next).head?, isNumberChar c = false := by
  cases unit with
  | nil => cases h
  | cons p more =>
    intro c hc
    obtain rfl : p = c := by simpa using hc
    apply Bool.eq_false_iff.mpr
    intro hNumber
    have hp : p.toLower = 'p' := (List.cons.inj h).1
    rw [toLower_of_isNumberChar hNumber] at hp
    rw [hp] at hNumber
    cases hNumber

theorem Grammar.Number.isNumberChar {number : List Char} (h : Number number) :
    ∀ c ∈ number, isNumberChar c = true := by
  intro c hc
  rcases h.chars c hc with hDigit | rfl
  · rw [BlockFlow.isNumberChar, hDigit, Bool.true_or]
  · rfl

theorem readLength_eq_ok_iff {c : Char} (hDigit : c.isDigit = true) {more rest : List Char}
    {v : Value Float} : readLength (c :: more) = .ok (v, rest) ↔
      ∃ number unit, c :: more = number ++ unit ++ rest ∧ Number number ∧ Name unit rest ∧
        unit.map Char.toLower = ['p', 'x'] ∧ v = .length (numeralValue number) := by
  constructor
  · intro h
    unfold readLength at h
    dsimp only at h
    split at h
    · cases h
    · next hPoints =>
      split at h
      · next hUnit =>
        obtain ⟨rfl, rfl⟩ := Prod.mk.inj (Except.ok.inj h)
        refine ⟨(c :: more).takeWhile isNumberChar,
          leadingName ((c :: more).dropWhile isNumberChar), ?_, ⟨?_, ?_, ?_⟩,
          name_leadingName ?_, hUnit, rfl⟩
        · rw [List.append_assoc, leadingName_append_afterName, List.takeWhile_append_dropWhile]
        · have hNumber : isNumberChar c = true := by rw [isNumberChar, hDigit, Bool.true_or]
          exact ⟨c, more.takeWhile isNumberChar, List.takeWhile_cons_of_pos hNumber, hDigit⟩
        · intro d hd
          have hd := mem_takeWhile isNumberChar _ d hd
          rwa [isNumberChar, Bool.or_eq_true, beq_iff_eq] at hd
        · exact Nat.le_of_not_lt hPoints
        · intro hNil
          rw [hNil] at hUnit
          cases hUnit
      · cases h
  · rintro ⟨number, unit, hText, hNumber, hName, hUnit, rfl⟩
    have hHead := isNumberChar_head_of_unit hUnit rest
    unfold readLength
    rw [hText, List.append_assoc]
    dsimp only
    rw [takeWhile_run hNumber.isNumberChar hHead, dropWhile_run hNumber.isNumberChar hHead,
      if_neg (Nat.not_lt.mpr hNumber.points), hName.leadingName, if_pos hUnit, hName.afterName]

theorem hexChannel?_eq_some_iff {a b : Char} {channel : UInt8} :
    hexChannel? a b = some channel ↔ Channel [a, b] channel := by
  constructor
  · intro h
    obtain ⟨n, hn, rfl⟩ := Option.map_eq_some_iff.mp h
    simp only [Text.ofHex?, List.foldlM_cons, List.foldlM_nil, Option.bind_eq_bind,
      Option.bind_eq_some_iff, Option.map_eq_some_iff, Option.pure_def, Option.some.injEq] at hn
    obtain ⟨-, ⟨x, hx, rfl⟩, -, ⟨y, hy, rfl⟩, rfl⟩ := hn
    exact ⟨a, b, x, y, rfl, hx, hy, by simp⟩
  · rintro ⟨_, _, x, y, hab, hx, hy, rfl⟩
    cases hab
    simp [hexChannel?, Text.ofHex?, hx, hy]

theorem leadingColor?_eq_some_iff {text rest : List Char} {c : Color} :
    leadingColor? text = some (c, rest) ↔ ∃ r g b red green blue, text = r ++ g ++ b ++ rest ∧
      Channel r red ∧ Channel g green ∧ Channel b blue ∧ c = ⟨red, green, blue, 255⟩ := by
  constructor
  · intro h
    unfold leadingColor? at h
    split at h
    · next r r' g g' b b' more =>
      simp only [Option.bind_eq_bind, Option.bind_eq_some_iff, hexChannel?_eq_some_iff,
        Option.some.injEq, Prod.mk.injEq] at h
      obtain ⟨red, hr, green, hg, blue, hb, rfl, rfl⟩ := h
      exact ⟨[r, r'], [g, g'], [b, b'], red, green, blue, rfl, hr, hg, hb, rfl⟩
    · cases h
  · rintro ⟨r, g, b, red, green, blue, rfl, hr, hg, hb, rfl⟩
    have ⟨r₁, r₂, _, _, hrEq, _⟩ := hr
    have ⟨g₁, g₂, _, _, hgEq, _⟩ := hg
    have ⟨b₁, b₂, _, _, hbEq, _⟩ := hb
    subst hrEq hgEq hbEq
    rw [← hexChannel?_eq_some_iff] at hr hg hb
    simp [leadingColor?, hr, hg, hb]

/-- Reading a value accepts what the grammar derives and nothing else. -/
theorem Value.read_eq_ok_iff {text rest : List Char} {v : Value Float} :
    Value.read text = .ok (v, rest) ↔ ∃ read, text = read ++ rest ∧ IsValue read v rest := by
  constructor
  · intro h
    unfold Value.read at h
    split at h
    · cases h
    · next c more =>
      split at h
      · next hDigit =>
        obtain ⟨number, unit, hText, hNumber, hName, hUnit, rfl⟩ :=
          (readLength_eq_ok_iff hDigit).mp h
        exact ⟨number ++ unit, hText, .length hNumber hName hUnit⟩
      · next hDigit =>
        split at h
        · next hHash =>
          unfold readColor at h
          split at h
          · next hColor =>
            obtain ⟨r, g, b, red, green, blue, rfl, hr, hg, hb, rfl⟩ :=
              leadingColor?_eq_some_iff.mp hColor
            obtain ⟨rfl, rfl⟩ := Prod.mk.inj (Except.ok.inj h)
            exact ⟨'#' :: (r ++ g ++ b), by rw [hHash]; rfl, .color hr hg hb⟩
          · cases h
        · cases hName : readName .missingValue (c :: more) with
          | error failure => rw [hName] at h; cases h
          | ok p =>
            rw [hName] at h
            obtain ⟨rfl, rfl⟩ := Prod.mk.inj (Except.ok.inj h)
            obtain ⟨chars, hText, hChars, hEq⟩ := readName_eq_ok_iff.mp hName
            rw [hEq]
            refine ⟨chars, hText, .keyword hChars ?_⟩
            obtain ⟨d, chars, rfl⟩ := List.exists_cons_of_ne_nil hChars.nonempty
            obtain ⟨rfl, -⟩ := List.cons.inj hText
            simpa using hDigit
  · rintro ⟨read, rfl, h⟩
    cases h with
    | @length number unit _ hNumber hName hUnit =>
      obtain ⟨c, more, rfl, hDigit⟩ := hNumber.digit
      have hRead : readLength (c :: (more ++ unit ++ rest)) = .ok (_, rest) :=
        (readLength_eq_ok_iff hDigit).mpr ⟨c :: more, unit, rfl, hNumber, hName, hUnit, rfl⟩
      rw [List.cons_append, List.cons_append, Value.read, if_pos hDigit, hRead]
    | @color r g b _ _ _ _ hr hg hb =>
      have hColor : leadingColor? (r ++ g ++ b ++ rest) = some (_, rest) :=
        leadingColor?_eq_some_iff.mpr ⟨r, g, b, _, _, _, rfl, hr, hg, hb, rfl⟩
      rw [List.cons_append, Value.read, if_neg (by decide), if_pos rfl, readColor, hColor]
    | @keyword name _ hName hDigit =>
      obtain ⟨c, more, rfl⟩ := List.exists_cons_of_ne_nil hName.nonempty
      have hHash : c ≠ '#' := by
        rintro rfl
        exact absurd (hName.chars _ List.mem_cons_self) (by decide)
      have hRead : readName .missingValue (c :: more ++ rest) = .ok (_, rest) :=
        readName_eq_ok_iff.mpr ⟨_, rfl, hName, rfl⟩
      rw [List.cons_append, Value.read, if_neg (by simp [hDigit c rfl]), if_neg hHash,
        ← List.cons_append, hRead]
      rfl

theorem Grammar.IsValue.head {text next : List Char} {v : Value Float} (h : IsValue text v next) :
    ∃ c more, text = c :: more ∧ Text.isBlank c = false := by
  cases h with
  | length hNumber hName hUnit =>
    obtain ⟨c, more, rfl, hDigit⟩ := hNumber.digit
    exact ⟨c, _, rfl, isBlank_eq_false_of_isNameChar (isNameChar_of_isDigit hDigit)⟩
  | color hr hg hb => exact ⟨'#', _, rfl, rfl⟩
  | keyword hName hDigit =>
    obtain ⟨c, more, rfl⟩ := List.exists_cons_of_ne_nil hName.nonempty
    exact ⟨c, more, rfl, isBlank_eq_false_of_isNameChar (hName.chars c List.mem_cons_self)⟩

theorem Grammar.IsValue.of_ends {text next next' : List Char} {v : Value Float}
    (h : IsValue text v next) (hNext : Ends next') : IsValue text v next' := by
  cases h with
  | length hNumber hName hUnit => exact .length hNumber (hName.of_ends hNext) hUnit
  | color hr hg hb => exact .color hr hg hb
  | keyword hName hDigit => exact .keyword (hName.of_ends hNext) hDigit

/-- Only the first character behind a value matters to it. -/
theorem Grammar.IsValue.of_head {text next next' : List Char} {v : Value Float}
    (h : IsValue text v next) (hHead : next'.head? = next.head?) : IsValue text v next' := by
  cases h with
  | length hNumber hName hUnit => exact .length hNumber (hName.of_head hHead) hUnit
  | color hr hg hb => exact .color hr hg hb
  | keyword hName hDigit => exact .keyword (hName.of_head hHead) hDigit

end BlockFlow
