import BlockFlow.Number.Reader
import BlockFlow.Proofs.Number.Bits
import BlockFlow.Proofs.Number.Plain

/-! # Numerals and the numbers they denote

A numeral is digits, perhaps with a point among them, perhaps with a power of ten behind them and a
hyphen before them. It denotes a rational number exactly, and what is read for it is the number
nearest to that one.
-/

namespace BlockFlow.Number

/-! ## Reading digits -/

/-- A text that does not go on with what could be taken for more of a run of digits. -/
def EndsDigits (rest : List Char) : Prop := ∀ c ∈ rest.head?, c.isDigit = false ∧ c ≠ '_'

theorem readDigits_of_ends {rest : List Char} (h : EndsDigits rest) : readDigits rest = ([], rest) := by
  rw [readDigits.eq_def]
  split
  · next c _ _ =>
    rw [if_neg (by rw [(h c rfl).1]; decide)]
  · next c _ _ =>
    rw [if_neg (by rw [(h c rfl).1]; decide)]
  · rfl

theorem readDigits_cons {c : Char} {rest : List Char} (hDigit : c.isDigit = true)
    (hRest : ∀ d ∈ rest.head?, d ≠ '_') :
    readDigits (c :: rest) = (c :: (readDigits rest).1, (readDigits rest).2) := by
  rw [readDigits.eq_def]
  split
  · -- The low line that could stand between two digits.
    next hText =>
    obtain ⟨-, rfl⟩ := List.cons.inj hText
    exact absurd rfl (hRest '_' rfl)
  · next hText =>
    obtain ⟨rfl, rfl⟩ := List.cons.inj hText
    rw [if_pos hDigit]
  · next hText => cases hText

theorem ne_underscore_of_isDigit {c : Char} (h : c.isDigit = true) : c ≠ '_' := by
  rintro rfl
  cases h

theorem readDigits_append {digits rest : List Char} (hDigits : ∀ c ∈ digits, c.isDigit = true)
    (hRest : EndsDigits rest) : readDigits (digits ++ rest) = (digits, rest) := by
  induction digits with
  | nil => exact readDigits_of_ends hRest
  | cons c digits ih =>
    have hMore : ∀ d ∈ digits, d.isDigit = true := fun d hd => hDigits d (List.mem_cons_of_mem _ hd)
    have hNext : ∀ d ∈ (digits ++ rest).head?, d ≠ '_' := by
      cases digits with
      | nil => exact fun d hd => (hRest d hd).2
      | cons d _ =>
        intro d' hd'
        obtain rfl := Option.some.inj hd'
        exact ne_underscore_of_isDigit (hMore d List.mem_cons_self)
    rw [List.cons_append, readDigits_cons (hDigits c List.mem_cons_self) hNext, ih hMore]

theorem readDecimal?_of_whole {text whole rest : List Char} (hRead : readDigits text = (whole, rest))
    (hWhole : whole ≠ []) (hPoint : ∀ c ∈ rest.head?, c ≠ '.') :
    readDecimal? text = (readPower? rest).map fun power =>
      ⟨(Decimal.ofNumeral whole []).digits, (Decimal.ofNumeral whole []).exponent + power⟩ := by
  have hTest : whole.isEmpty = false := List.isEmpty_eq_false_iff.mpr hWhole
  rw [readDecimal?, hRead]
  dsimp only
  split
  · exact absurd rfl (hPoint '.' rfl)
  · rw [hTest, Bool.false_and, if_neg Bool.false_ne_true]
    cases readPower? rest <;> rfl

theorem readDecimal?_of_point {text whole rest fraction power : List Char}
    (hRead : readDigits text = (whole, '.' :: rest)) (hMore : readDigits rest = (fraction, power))
    (hWhole : whole ≠ []) :
    readDecimal? text = (readPower? power).map fun p =>
      ⟨(Decimal.ofNumeral whole fraction).digits,
        (Decimal.ofNumeral whole fraction).exponent + p⟩ := by
  have hTest : whole.isEmpty = false := List.isEmpty_eq_false_iff.mpr hWhole
  simp only [readDecimal?, hRead, hMore, hTest, Bool.false_and, if_neg Bool.false_ne_true]
  cases readPower? power <;> rfl

/-! ## Numerals -/

/-- A numeral without a power of ten. It has a point only if digits follow it. -/
structure Numeral where
  negative : Bool
  whole : List Char
  fraction : List Char
  whole_ne_nil : whole ≠ []
  isDigit_whole : ∀ c ∈ whole, c.isDigit = true
  isDigit_fraction : ∀ c ∈ fraction, c.isDigit = true

namespace Numeral

def unsigned (n : Numeral) : List Char :=
  n.whole ++ if n.fraction = [] then [] else '.' :: n.fraction

def chars (n : Numeral) : List Char := signed n.negative n.unsigned

def decimal (n : Numeral) : Decimal := .ofNumeral n.whole n.fraction

/-- The rational number that a numeral denotes. -/
def value (n : Numeral) : Rat := if n.negative then -n.decimal.value else n.decimal.value

theorem readDecimal?_append (n : Numeral) {power : List Char} (hPower : ∀ c ∈ power.head?, c = 'e') :
    readDecimal? (n.unsigned ++ power) =
      (readPower? power).map fun p => ⟨n.decimal.digits, n.decimal.exponent + p⟩ := by
  have hEnds : EndsDigits power := by
    intro c hc
    rw [hPower c hc]
    exact ⟨rfl, by decide⟩
  by_cases hFraction : n.fraction = []
  · have hText : n.unsigned ++ power = n.whole ++ power := by
      rw [unsigned, if_pos hFraction, List.append_nil]
    have hPoint : ∀ c ∈ power.head?, c ≠ '.' := by
      intro c hc
      rw [hPower c hc]
      decide
    rw [hText, readDecimal?_of_whole (readDigits_append n.isDigit_whole hEnds) n.whole_ne_nil hPoint,
      decimal, hFraction]
  · have hText : n.unsigned ++ power = n.whole ++ '.' :: (n.fraction ++ power) := by
      rw [unsigned, if_neg hFraction, List.append_assoc, List.cons_append]
    have hPoint : EndsDigits ('.' :: (n.fraction ++ power)) := by
      intro c hc
      obtain rfl := Option.some.inj hc
      exact ⟨rfl, by decide⟩
    rw [hText, readDecimal?_of_point (readDigits_append n.isDigit_whole hPoint)
      (readDigits_append n.isDigit_fraction hEnds) n.whole_ne_nil, decimal]

end Numeral

/-! ## Texts that denote decimals -/

def isNumeralChar (c : Char) : Bool := c.isDigit || c == '.' || c == 'e' || c == '+' || c == '-'

theorem isNumeralChar_of_isDigit {c : Char} (h : c.isDigit = true) : isNumeralChar c = true := by
  simp only [isNumeralChar, h, Bool.true_or]

theorem toLower_of_isDigit {c : Char} (h : c.isDigit = true) : c.toLower = c := by
  have hHigh : c.toNat ≤ 57 := (Char.isDigit_iff_toNat.mp h).2
  apply dif_neg
  rintro ⟨hUpper, -⟩
  have hLow : 65 ≤ c.toNat := hUpper
  omega

theorem toNat_of_isNumeralChar {c : Char} (h : isNumeralChar c = true) :
    33 ≤ c.toNat ∧ c.toNat < 127 := by
  simp only [isNumeralChar, Bool.or_eq_true, beq_iff_eq] at h
  rcases h with (((h | rfl) | rfl) | rfl) | rfl
  · have : 48 ≤ c.toNat ∧ c.toNat ≤ 57 := Char.isDigit_iff_toNat.mp h
    omega
  all_goals decide

theorem dropWhile_isAsciiBlank {text : List Char} (h : ∀ c ∈ text, isNumeralChar c = true) :
    text.dropWhile Text.isAsciiBlank = text := by
  cases text with
  | nil => rfl
  | cons c rest =>
    have := toNat_of_isNumeralChar (h c List.mem_cons_self)
    apply List.dropWhile_cons_of_neg
    simp only [Text.isAsciiBlank, Bool.or_eq_true, Bool.and_eq_true, decide_eq_true_eq, beq_iff_eq]
    omega

/-- An unsigned text that is read as a decimal: it begins with a digit, and whatever follows is of
the kind that numerals are made of. -/
structure Denotes (text : List Char) (d : Decimal) : Prop where
  head : ∀ c ∈ text.head?, c.isDigit = true
  chars : ∀ c ∈ text, isNumeralChar c = true
  read : readDecimal? text = some d

/-- The rational number that a text denotes, if it is a numeral. -/
def rational? (text : List Char) : Option Rat :=
  let (negative, rest) := readSign text
  (readDecimal? rest).map fun d => if negative then -d.value else d.value

namespace Denotes

variable {text : List Char} {d : Decimal}

theorem exists_cons (h : Denotes text d) : ∃ c rest, text = c :: rest ∧ c.isDigit = true := by
  cases text with
  | nil => exact absurd h.read nofun
  | cons c rest => exact ⟨c, rest, rfl, h.head c rfl⟩

theorem readSign_signed (h : Denotes text d) (negative : Bool) :
    readSign (signed negative text) = (negative, text) := by
  cases negative with
  | true => rfl
  | false =>
    obtain ⟨c, rest, rfl, hDigit⟩ := h.exists_cons
    rw [signed, if_neg Bool.false_ne_true]
    unfold readSign
    split
    · next hText =>
      obtain ⟨rfl, -⟩ := List.cons.inj hText
      cases hDigit
    · next hText =>
      obtain ⟨rfl, -⟩ := List.cons.inj hText
      cases hDigit
    · rfl

theorem rational?_signed (h : Denotes text d) (negative : Bool) :
    rational? (signed negative text) = some (if negative then -d.value else d.value) := by
  simp only [rational?, h.readSign_signed, h.read, Option.map_some]

theorem readMagnitude?_eq (h : Denotes text d) : readMagnitude? text = some d.nearest := by
  obtain ⟨c, rest, rfl, hDigit⟩ := h.exists_cons
  have hWord {first : Char} {word : String} (hHead : word.toList.head? = some first)
      (hFirst : first.isDigit = false) : String.ofList ((c :: rest).map Char.toLower) ≠ word := by
    rintro rfl
    rw [String.toList_ofList] at hHead
    obtain rfl : c.toLower = first := Option.some.inj hHead
    rw [toLower_of_isDigit hDigit, hDigit] at hFirst
    cases hFirst
  have hInfinite : ¬ (String.ofList ((c :: rest).map Char.toLower) = "inf" ∨
      String.ofList ((c :: rest).map Char.toLower) = "infinity") :=
    not_or.mpr ⟨hWord rfl rfl, hWord rfl rfl⟩
  rw [readMagnitude?, if_neg hInfinite, if_neg (hWord rfl rfl), h.read]
  rfl

theorem read?_signed (h : Denotes text d) (negative : Bool) :
    read? (String.ofList (signed negative text)) = some (d.toFloat negative) := by
  have hChars : ∀ c ∈ signed negative text, isNumeralChar c = true := by
    cases negative with
    | true => exact List.forall_mem_cons.mpr ⟨rfl, h.chars⟩
    | false => exact h.chars
  have hAscii : toAsciiText? (signed negative text) = some (signed negative text) :=
    if_pos (List.all_eq_true.mpr fun c hc =>
      decide_eq_true ((toNat_of_isNumeralChar (hChars c hc)).2.trans (by decide)))
  have hFront := dropWhile_isAsciiBlank hChars
  have hBack := dropWhile_isAsciiBlank fun c hc => hChars c (List.mem_reverse.mp hc)
  simp only [read?, String.toList_ofList, hAscii, hFront, hBack, List.reverse_reverse,
    h.readSign_signed, h.readMagnitude?_eq, Option.bind_eq_bind, Option.bind_some]
  rfl

end Denotes

namespace Numeral

variable (n : Numeral)

theorem isNumeralChar_of_mem {c : Char} (h : c ∈ n.unsigned) : isNumeralChar c = true := by
  rcases List.mem_append.mp h with h | h
  · exact isNumeralChar_of_isDigit (n.isDigit_whole c h)
  · split at h
    · cases h
    · rcases List.mem_cons.mp h with rfl | h
      · rfl
      · exact isNumeralChar_of_isDigit (n.isDigit_fraction c h)

/-- A numeral, and one with a power of ten behind it, denotes its digits to that power. -/
theorem denotes_append {power : List Char} {p : Int} (hHead : ∀ c ∈ power.head?, c = 'e')
    (hChars : ∀ c ∈ power, isNumeralChar c = true) (hPower : readPower? power = some p) :
    Denotes (n.unsigned ++ power) ⟨n.decimal.digits, n.decimal.exponent + p⟩ where
  head := by
    obtain ⟨c, rest, hWhole⟩ := List.exists_cons_of_ne_nil n.whole_ne_nil
    intro d hd
    rw [unsigned, hWhole] at hd
    obtain rfl := Option.some.inj hd
    exact n.isDigit_whole c (hWhole ▸ List.mem_cons_self)
  chars := by
    intro c hc
    rcases List.mem_append.mp hc with hc | hc
    · exact n.isNumeralChar_of_mem hc
    · exact hChars c hc
  read := by rw [n.readDecimal?_append hHead, hPower, Option.map_some]

theorem denotes : Denotes n.unsigned n.decimal := by
  have hDenotes : Denotes (n.unsigned ++ []) ⟨n.decimal.digits, n.decimal.exponent + 0⟩ :=
    n.denotes_append nofun nofun rfl
  rw [List.append_nil, Int.add_zero] at hDenotes
  exact hDenotes

theorem rational?_chars : rational? n.chars = some n.value := n.denotes.rational?_signed n.negative

theorem read?_chars : read? (String.ofList n.chars) = some (n.decimal.toFloat n.negative) :=
  n.denotes.read?_signed n.negative

end Numeral

end BlockFlow.Number
