import BlockFlow.Proofs.Sheet.Recovery
import BlockFlow.Proofs.Sheet.RoundTrip

/-! # What was read is printed and read again

Whatever is read, in either mode, is derived for some text. A rule that is derived for a text is
legible and has its selectors in order, so that its own text derives one rule again. That is the
rule itself unless a length of it is too long for a finite number: an infinite length is printed like
a keyword, and is read as one.
-/

namespace BlockFlow

open Grammar

/-- In recovering mode a sheet is derived for the source with some spans of it blanked out. -/
theorem exists_sheet_of_parse {mode : Mode} {source : String} {sheet : Stylesheet}
    (h : (Stylesheet.parse mode source).result = .ok sheet) : ∃ text, Sheet text sheet.rules := by
  cases mode with
  | strict => exact ⟨source.toList, reading_readRules_iff.mp (result_parse_eq_ok_iff.mp h)⟩
  | recovering =>
    have hStart : Reached [] := .sheet ⟨[], [], rfl, .nil, .nil⟩
    obtain ⟨spans, hSpans⟩ := exists_iterates hStart source.toList
    rw [List.nil_append] at hSpans
    obtain ⟨rest, hRead⟩ := Reading.result_eq_ok_iff.mp h
    obtain ⟨rules, hRules, rfl⟩ := Reading.map_eq_ok_iff.mp hRead
    have hStrict : (readRules .strict (blankOut spans source.toList)).reading =
        .ok (rules, rest) := by
      rw [hSpans.result]
      exact hRules
    exact ⟨_, (sheet_of_readRules hStrict).2⟩

namespace Value

def IsFinite (v : Value Float) : Prop := ∀ x, v = length x → Number.isFinite x = true

theorem Legible.readBack_eq_self_iff {v : Value Float} (h : v.Legible) :
    v.readBack = v ↔ v.IsFinite := by
  have hFaithful : v.Faithful ↔ v.readBack = v := faithful_iff.trans (and_iff_right h)
  rw [← hFaithful]
  cases v with
  | keyword name => exact ⟨fun _ _ => nofun, fun _ => h⟩
  | length x =>
    constructor
    · rintro ⟨hFinite, -⟩ y hy
      cases hy
      exact hFinite
    · intro hFinite
      exact ⟨hFinite x rfl, h.1⟩
  | color c => exact ⟨fun _ _ => nofun, fun _ => h⟩

end Value

/-- A rule that was derived for a text comes back from its own text, but for its infinite lengths. -/
theorem Grammar.IsRule.readBack_eq_self_iff {text : List Char} {r : Rule} (h : IsRule text r) :
    r.readBack = r ↔ ∀ d ∈ r.declarations, d.value.IsFinite := by
  obtain ⟨hLegible, hDescending⟩ := h.legible
  have hValue (d : Declaration Float) (hd : d ∈ r.declarations) :
      d.readBack = d ↔ d.value.IsFinite := by
    rw [← (hLegible.declarations d hd).value.readBack_eq_self_iff]
    obtain ⟨name, value⟩ := d
    rw [Declaration.readBack, Declaration.mk.injEq]
    exact and_iff_right rfl
  constructor
  · intro hBack d hd
    have hFaithful := Rule.faithful_iff.mpr ⟨hLegible, hBack⟩
    exact (hValue d hd).mp (Declaration.faithful_iff.mp (hFaithful.declarations d hd)).2
  · intro hFinite
    refine (Rule.faithful_iff.mp ⟨hLegible.nonempty, hDescending, hLegible.selectors, ?_⟩).2
    intro d hd
    exact Declaration.faithful_iff.mpr
      ⟨hLegible.declarations d hd, (hValue d hd).mpr (hFinite d hd)⟩

theorem Rule.Legible.parse_text {r : Rule} (h : r.Legible) :
    (Stylesheet.parse .strict r.text).result = .ok ⟨[r.readBack]⟩ := by
  rw [result_parse_eq_ok_iff, reading_readRules_iff, Rule.text, String.toList_ofList]
  exact h.sheet_chars

/-! ## One length -/

theorem sheet_of_number {number : List Char} (h : Number number) :
    Sheet ("*\x7bw:".toList ++ number ++ "px;\x7d".toList)
      [⟨[.everything], [⟨"w", .length (numeralValue number)⟩]⟩] := by
  have hGroup : Group (['*'] ++ []) [.everything] ['\x7b'] :=
    .last (.cons .universal .nil) (names_iff.mpr rfl) .nil
  have hUnit : Name ['p', 'x'] [';'] :=
    ⟨List.cons_ne_nil _ _, List.all_eq_true.mp rfl, Ends.cons rfl _⟩
  have hName : Name ['w'] [':'] :=
    ⟨List.cons_ne_nil _ _, List.all_eq_true.mp rfl, Ends.cons rfl _⟩
  have hDeclaration := IsDeclaration.mk hName .nil .nil (.length h hUnit rfl) .nil
  have hSheet := ((Sheet.opening ⟨[], [], rfl, .nil, .nil⟩ .nil hGroup).append_declaration
    hDeclaration).close
  rw [Selector.bySpecificity_eq_self_iff.mpr (List.pairwise_singleton _ _)] at hSheet
  simpa using hSheet

theorem parse_of_number {number : List Char} (h : Number number) :
    (Stylesheet.parse .strict
      (String.ofList ("*\x7bw:".toList ++ number ++ "px;\x7d".toList))).result =
        .ok ⟨[⟨[.everything], [⟨"w", .length (numeralValue number)⟩]⟩]⟩ := by
  rw [result_parse_eq_ok_iff, reading_readRules_iff, String.toList_ofList]
  exact sheet_of_number h

/-! ## Lengths that are too long -/

section Long

variable {zeros : Nat}

/-- The numeral of a power of ten. -/
def roundNumeral (zeros : Nat) : List Char := '1' :: List.replicate zeros '0'

theorem isDigit_of_mem_roundNumeral : ∀ c ∈ roundNumeral zeros, c.isDigit = true := by
  intro c hc
  rcases List.mem_cons.mp hc with rfl | hc
  · rfl
  · exact Number.Decimal.isDigit_of_mem_replicate hc

theorem numeralValue_roundNumeral :
    numeralValue (roundNumeral zeros) = Number.Decimal.toFloat false ⟨10 ^ zeros, 0⟩ := by
  have hTest : ∀ c ∈ roundNumeral zeros, (c != '.') = true := by
    intro c hc
    apply bne_iff_ne.mpr
    rintro rfl
    exact nomatch isDigit_of_mem_roundNumeral '.' hc
  have hEnd : ∀ c ∈ ([] : List Char).head?, (c != '.') = false := nofun
  have hWhole := takeWhile_run hTest hEnd
  have hFraction := dropWhile_run hTest hEnd
  rw [List.append_nil] at hWhole hFraction
  have hValue : Nat.ofDigitChars 10 (roundNumeral zeros) 0 = 10 ^ zeros := by
    rw [roundNumeral, Nat.ofDigitChars_cons, Nat.ofDigitChars_replicate_zero]
    exact Nat.mul_one _
  rw [numeralValue, hWhole, hFraction, Number.Decimal.ofNumeral, List.drop_nil, List.append_nil,
    hValue]
  rfl

theorem isFinite_roundNumeral (h : 342 ≤ zeros) :
    Number.isFinite (numeralValue (roundNumeral zeros)) = false := by
  obtain ⟨k, hk⟩ : ∃ k, k = 1074 := ⟨_, rfl⟩
  have hInfinite : Number.Decimal.nearest ⟨10 ^ zeros, 0⟩ = Number.infiniteMagnitude := by
    rw [Number.Decimal.nearest_eq]
    apply Number.nearestMagnitude_eq_infinite (p := 3 * zeros + k)
      (Number.Decimal.toFraction_den_pos _) (by omega)
    rw [Number.unitsPerOne_eq hk, Nat.pow_add]
    simp only [Number.Decimal.toFraction, Int.toNat_zero, Int.neg_zero, Nat.pow_eq, Nat.pow_zero,
      Nat.mul_one]
    exact Nat.mul_le_mul_right _ (Number.two_pow_three_mul_le zeros)
  rw [numeralValue_roundNumeral, Number.Decimal.toFloat, hInfinite, Number.isFinite,
    Number.magnitude_ofMagnitude false (Nat.le_refl _)]
  exact decide_eq_false (Nat.lt_irrefl _)

end Long

/-! ## Printing and reading again -/

/-- Every rule that was read, in either mode, is printed as a style sheet of one rule, in which each
length that is not finite has become a keyword. It is the rule itself exactly if all its lengths are
finite. -/
theorem parse_text_of_parse {mode : Mode} {source : String} {sheet : Stylesheet}
    (h : (Stylesheet.parse mode source).result = .ok sheet) {r : Rule} (hr : r ∈ sheet.rules) :
    (Stylesheet.parse .strict r.text).result = .ok ⟨[r.readBack]⟩ ∧
      ((Stylesheet.parse .strict r.text).result = .ok ⟨[r]⟩ ↔
        ∀ d ∈ r.declarations, d.value.IsFinite) := by
  obtain ⟨text, _, _, _, _, hRules⟩ := exists_sheet_of_parse h
  obtain ⟨text', hRule⟩ := hRules.exists_item hr
  have hRead := hRule.legible.1.parse_text
  refine ⟨hRead, ?_⟩
  rw [hRead, ← hRule.readBack_eq_self_iff]
  constructor
  · intro hEq
    exact (List.cons.inj (Stylesheet.mk.inj (Except.ok.inj hEq))).1
  · intro hEq
    rw [hEq]

/-- A sheet of one rule. -/
theorem parse_text_of_parse_width :
    let rule : Rule := ⟨[.everything], [⟨"w", .length (numeralValue "800".toList)⟩]⟩
    (Stylesheet.parse .strict "*\x7bw:800px;\x7d").result = .ok ⟨[rule]⟩ ∧ rule ∈ [rule] ∧
      (Stylesheet.parse .strict rule.text).result = .ok ⟨[rule.readBack]⟩ ∧
      ((Stylesheet.parse .strict rule.text).result = .ok ⟨[rule]⟩ ↔
        ∀ d ∈ rule.declarations, d.value.IsFinite) := by
  have hNumber : Number "800".toList :=
    number_of_digits (List.cons_ne_nil _ _) (List.all_eq_true.mp rfl)
  have hParse := parse_of_number hNumber
  exact ⟨hParse, List.mem_singleton_self _,
    parse_text_of_parse hParse (List.mem_singleton_self _)⟩

/-- A rule that does not come back: its length has 401 digits. -/
theorem parse_text_of_parse_fails :
    let rule : Rule := ⟨[.everything], [⟨"w", .length (numeralValue (roundNumeral 400))⟩]⟩
    (Stylesheet.parse .strict
      (String.ofList ("*\x7bw:".toList ++ roundNumeral 400 ++ "px;\x7d".toList))).result =
        .ok ⟨[rule]⟩ ∧
      (Stylesheet.parse .strict rule.text).result ≠ .ok ⟨[rule]⟩ := by
  have hNumber : Number (roundNumeral 400) :=
    number_of_digits (List.cons_ne_nil _ _) isDigit_of_mem_roundNumeral
  have ⟨_, _, _, _, hRules⟩ := sheet_of_number hNumber
  obtain ⟨text, hRule⟩ := hRules.exists_item List.mem_cons_self
  refine ⟨parse_of_number hNumber, ?_⟩
  rw [hRule.legible.1.parse_text]
  intro hEq
  have hBack := (List.cons.inj (Stylesheet.mk.inj (Except.ok.inj hEq))).1
  have hFinite := hRule.readBack_eq_self_iff.mp hBack _ List.mem_cons_self _ rfl
  rw [isFinite_roundNumeral (by decide)] at hFinite
  cases hFinite

end BlockFlow
