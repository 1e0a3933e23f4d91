import BlockFlow.Proofs.Number.Bits
import BlockFlow.Proofs.Number.Plain
import BlockFlow.Proofs.Sheet.Groups
import BlockFlow.Sheet.Reader.Rule

/-! # The grammar of printed text

What printing gives for a value, a selector or a rule is derived by the grammar as soon as its names
are names. It need not be derived for what was printed: an infinite length comes out as a keyword.
-/

namespace BlockFlow

open Grammar

/-! ## Names -/

def IsName (name : String) : Prop := name ≠ "" ∧ ∀ c ∈ name.toList, isNameChar c = true

theorem IsName.derived {name : String} {next : List Char} (h : IsName name) (hNext : Ends next) :
    Name name.toList next :=
  ⟨fun hNil => h.1 (String.toList_eq_nil_iff.mp hNil), h.2, hNext⟩

theorem Grammar.Name.isName {name next : List Char} (h : Name name next) :
    IsName (String.ofList name) := by
  constructor
  · intro hNil
    apply h.nonempty
    rw [← String.toList_ofList (l := name), hNil]
    rfl
  · rw [String.toList_ofList]
    exact h.chars

/-! ## Values -/

namespace Value

/-- A value whose text is that of some value. -/
def Legible : Value Float → Prop
  | keyword name => IsName name ∧ ∀ c ∈ name.toList.head?, c.isDigit = false
  | length x => Number.isNegative x = false ∧ Number.magnitude x ≤ Number.infiniteMagnitude
  | color c => c.alpha = 255

/-- What the text of a value stands for. -/
def readBack : Value Float → Value Float
  | length x => if Number.isFinite x then length x else keyword "Infinitypx"
  | v => v

end Value

theorem count_point_of_digits {text : List Char} (h : ∀ c ∈ text, c.isDigit = true) :
    text.count '.' = 0 :=
  List.count_eq_zero.mpr fun hMem => nomatch h '.' hMem

theorem number_of_digits {text : List Char} (hText : text ≠ [])
    (hDigits : ∀ c ∈ text, c.isDigit = true) : Number text := by
  have hCount := count_point_of_digits hDigits
  obtain ⟨c, more, rfl⟩ := List.exists_cons_of_ne_nil hText
  exact ⟨⟨c, more, rfl, hDigits c List.mem_cons_self⟩, fun d hd => .inl (hDigits d hd), by omega⟩

theorem number_of_point {whole fraction : List Char} (hWhole : whole ≠ [])
    (hWholeDigits : ∀ c ∈ whole, c.isDigit = true)
    (hFractionDigits : ∀ c ∈ fraction, c.isDigit = true) : Number (whole ++ '.' :: fraction) := by
  refine ⟨?_, ?_, ?_⟩
  · obtain ⟨c, more, rfl⟩ := List.exists_cons_of_ne_nil hWhole
    exact ⟨c, _, rfl, hWholeDigits c List.mem_cons_self⟩
  · intro c hc
    rcases List.mem_append.mp hc with hc | hc
    · exact .inl (hWholeDigits c hc)
    · rcases List.mem_cons.mp hc with rfl | hc
      · exact .inr rfl
      · exact .inl (hFractionDigits c hc)
  · rw [List.count_append, List.count_cons, count_point_of_digits hWholeDigits,
      count_point_of_digits hFractionDigits]
    decide

/-- A decimal that is written out is a number, and the number is the one nearest to the decimal. -/
theorem number_plain (d : Number.Decimal) :
    Number (d.plain []) ∧ numeralValue (d.plain []) = d.toFloat false := by
  have hTest {text : List Char} (h : ∀ c ∈ text, c.isDigit = true) :
      ∀ c ∈ text, (c != '.') = true := by
    intro c hc
    apply bne_iff_ne.mpr
    rintro rfl
    exact nomatch h '.' hc
  have hWhole : ∀ c ∈ d.whole, c.isDigit = true := fun _ => Number.Decimal.isDigit_of_mem_whole
  have hFraction : ∀ c ∈ d.fraction, c.isDigit = true :=
    fun _ => Number.Decimal.isDigit_of_mem_fraction
  have hValue : (Number.Decimal.ofNumeral d.whole d.fraction).toFloat false = d.toFloat false :=
    congrArg (Number.ofMagnitude false) (Number.Decimal.nearest_congr d.value_ofNumeral)
  by_cases h : 0 ≤ d.exponent
  · have hNone : d.fraction = [] := if_pos h
    rw [Number.Decimal.plain_of_nonneg h]
    refine ⟨number_of_digits d.whole_ne_nil hWhole, ?_⟩
    have hEnd : ∀ c ∈ ([] : List Char).head?, (c != '.') = false := nofun
    have hRun := takeWhile_run (hTest hWhole) hEnd
    have hRest := dropWhile_run (hTest hWhole) hEnd
    rw [List.append_nil] at hRun hRest
    rw [numeralValue, hRun, hRest, ← hValue, hNone]
    rfl
  · rw [Number.Decimal.plain_of_neg (by omega)]
    refine ⟨number_of_point d.whole_ne_nil hWhole hFraction, ?_⟩
    have hPoint : ∀ c ∈ ('.' :: d.fraction).head?, (c != '.') = false := by
      intro c hc
      obtain rfl := Option.some.inj hc
      rfl
    rw [numeralValue, takeWhile_run (hTest hWhole) hPoint, dropWhile_run (hTest hWhole) hPoint,
      ← hValue]
    rfl

theorem channel_hex (channel : UInt8) : Channel (Text.hex 2 channel.toNat) channel := by
  have hLow := Nat.mod_lt channel.toNat (by decide : 0 < 16)
  have hHigh := Nat.mod_lt (channel.toNat / 16) (by decide : 0 < 16)
  refine ⟨_, _, _, _, rfl, Text.hexValue?_digitChar hHigh, Text.hexValue?_digitChar hLow, ?_⟩
  have hDigits : 16 * (channel.toNat / 16 % 16) + channel.toNat % 16 = channel.toNat := by
    have := channel.toNat_lt
    omega
  rw [hDigits, UInt8.ofNat_toNat]

namespace Value

theorem chars_of_isFinite {x : Float} (hFinite : Number.isFinite x = true)
    (hSign : Number.isNegative x = false) :
    ∃ number, (length x).chars = number ++ ['p', 'x'] ∧ Number number ∧ numeralValue number = x := by
  have hLt : Number.magnitude x < Number.infiniteMagnitude := of_decide_eq_true hFinite
  refine ⟨(Number.shortest (Number.magnitude x)).plain [], ?_, (number_plain _).1, ?_⟩
  · rw [chars, Number.Form.length.writeChars_of_isFinite hFinite, hSign,
      Number.Form.length.writeMagnitude_of_lt hLt]
    rfl
  · rw [(number_plain _).2, Number.Decimal.toFloat, Number.nearest_shortest hLt, ← hSign,
      Number.ofMagnitude_magnitude]

theorem chars_of_infinite {x : Float} (hInfinite : Number.magnitude x = Number.infiniteMagnitude)
    (hSign : Number.isNegative x = false) : (length x).chars = "Infinitypx".toList := by
  rw [chars, Number.Form.writeChars, hSign, Bool.false_and, if_neg Bool.false_ne_true,
    Number.Form.writeMagnitude, if_neg (Nat.not_lt.mpr (Nat.le_of_eq hInfinite)), if_pos hInfinite]
  rfl

theorem isValue_chars {v : Value Float} (h : v.Legible) {next : List Char} (hNext : Ends next) :
    IsValue v.chars v.readBack next := by
  cases v with
  | keyword name =>
    obtain ⟨hName, hHead⟩ := h
    have hKeyword := IsValue.keyword (hName.derived hNext) hHead
    rw [String.ofList_toList] at hKeyword
    exact hKeyword
  | length x =>
    obtain ⟨hSign, hLe⟩ := h
    by_cases hFinite : Number.isFinite x = true
    · have hUnit : Name ['p', 'x'] next := ⟨List.cons_ne_nil _ _, List.all_eq_true.mp rfl, hNext⟩
      obtain ⟨number, hChars, hNumber, rfl⟩ := chars_of_isFinite hFinite hSign
      rw [readBack, if_pos hFinite, hChars]
      exact .length hNumber hUnit rfl
    · have hInfinite : Number.magnitude x = Number.infiniteMagnitude := by
        have hGe := of_decide_eq_false (Bool.eq_false_iff.mpr hFinite)
        omega
      have hName : IsName "Infinitypx" := ⟨by decide, List.all_eq_true.mp rfl⟩
      rw [readBack, if_neg hFinite, chars_of_infinite hInfinite hSign]
      refine .keyword (hName.derived hNext) ?_
      intro c hc
      obtain rfl : 'I' = c := Option.some.inj hc
      rfl
  | color c =>
    obtain ⟨red, green, blue, alpha⟩ := c
    obtain rfl : alpha = 255 := h
    rw [chars, Color.chars, if_pos rfl, List.append_nil]
    exact .color (channel_hex red) (channel_hex green) (channel_hex blue)

end Value

theorem Grammar.IsValue.legible {text next : List Char} {v : Value Float}
    (h : IsValue text v next) : v.Legible := by
  cases h with
  | length =>
    exact ⟨Number.isNegative_ofMagnitude false (Number.Decimal.nearest_le _),
      Nat.le_trans (Nat.le_of_eq (Number.magnitude_ofMagnitude false (Number.Decimal.nearest_le _)))
        (Number.Decimal.nearest_le _)⟩
  | color => rfl
  | keyword hName hHead =>
    refine ⟨hName.isName, ?_⟩
    rw [String.toList_ofList]
    exact hHead

/-! ## Selectors -/

theorem Grammar.Parts.eq_nil {text next : List Char} {parts : List SelectorPart}
    (h : Parts text parts next) (hText : text = []) : parts = [] := by
  cases h with
  | nil => rfl
  | cons hPart _ =>
    obtain ⟨c, more, rfl, -⟩ := hPart.head
    cases hText

namespace Selector

structure Named (s : Selector) : Prop where
  tag : ∀ name ∈ s.tag, IsName name
  id : ∀ name ∈ s.id, IsName name
  classes : ∀ name ∈ s.classes, IsName name

/-- The parts that a selector is written in, if it names anything. -/
def parts (s : Selector) : List SelectorPart :=
  s.tag.toList.map .tag ++ s.id.toList.map .id ++ s.classes.map .className

theorem foldl_add_className (s : Selector) (classes : List String) :
    (classes.map SelectorPart.className).foldl add s = { s with classes := s.classes ++ classes } := by
  induction classes generalizing s with
  | nil => simp
  | cons name classes ih =>
    rw [List.map_cons, List.foldl_cons, ih]
    simp [add]

theorem ofParts_parts (s : Selector) : ofParts s.parts = s := by
  obtain ⟨tag, id, classes⟩ := s
  rw [ofParts, parts, List.foldl_append, foldl_add_className]
  cases tag with
  | none => cases id <;> rfl
  | some tag => cases id <;> rfl

theorem parts_classes {classes : List String} (h : ∀ name ∈ classes, IsName name)
    {next : List Char} (hNext : Ends next) :
    Parts (classes.flatMap fun name => '.' :: name.toList) (classes.map .className) next ∧
      Ends ((classes.flatMap fun name => '.' :: name.toList) ++ next) := by
  induction classes with
  | nil => exact ⟨.nil, hNext⟩
  | cons name classes ih =>
    obtain ⟨hParts, hEnds⟩ := ih fun other hOther => h other (List.mem_cons_of_mem _ hOther)
    have hPart := Part.className ((h name List.mem_cons_self).derived hEnds)
    rw [String.ofList_toList] at hPart
    exact ⟨.cons hPart hParts, .cons rfl _⟩

theorem parts_id (id : Option String) {next : List Char} (hNext : Ends next) :
    (∀ name ∈ id, IsName name) →
    Parts (match id with | some name => '#' :: name.toList | none => []) (id.toList.map .id) next ∧
      Ends ((match id with | some name => '#' :: name.toList | none => []) ++ next) := by
  intro h
  cases id with
  | none => exact ⟨.nil, hNext⟩
  | some name =>
    have hPart := Part.id ((h name rfl).derived hNext)
    rw [String.ofList_toList] at hPart
    exact ⟨.singleton hPart, .cons rfl _⟩

theorem parts_tag {tag : Option String} (h : ∀ name ∈ tag, IsName name) {next : List Char}
    (hNext : Ends next) : Parts (tag.getD "").toList (tag.toList.map .tag) next := by
  cases tag with
  | none => exact .nil
  | some name =>
    have hPart := Part.tag ((h name rfl).derived hNext)
    rw [String.ofList_toList] at hPart
    exact .singleton hPart

/-- A selector is written in its parts; one that names nothing is written with an asterisk. -/
theorem parts_chars {s : Selector} (h : s.Named) {next : List Char} (hNext : Ends next) :
    ∃ parts, Parts s.chars parts next ∧ Names parts s := by
  obtain ⟨hClasses, hClassesEnd⟩ := parts_classes h.classes hNext
  obtain ⟨hId, hIdEnd⟩ := parts_id s.id hClassesEnd h.id
  have hTag := parts_tag h.tag hIdEnd
  have hParts : Parts _ s.parts next := (hTag.append hId).append hClasses
  have hNames : Names s.parts s := names_iff.mpr s.ofParts_parts.symm
  unfold chars
  dsimp only
  split
  · next hEmpty =>
    rw [hParts.eq_nil hEmpty] at hNames
    have hEverything : s = everything := names_iff.mp hNames
    exact ⟨[.universal], .cons .universal .nil, names_iff.mpr hEverything⟩
  · exact ⟨s.parts, hParts, hNames⟩

/-- Selectors are written with a comma and a blank between them, and a blank stands before the brace
of the rule. -/
theorem group_chars {selectors : List Selector} (hNonempty : selectors ≠ [])
    (h : ∀ s ∈ selectors, s.Named) :
    Group (List.intercalate [',', ' '] (selectors.map chars) ++ [' ']) selectors ['\x7b'] := by
  induction selectors with
  | nil => exact absurd rfl hNonempty
  | cons s selectors ih =>
    have hFirst := h s List.mem_cons_self
    cases selectors with
    | nil =>
      have hEnds : Ends [' ', '\x7b'] := .cons (by decide) _
      obtain ⟨parts, hParts, hNames⟩ := parts_chars hFirst hEnds
      rw [List.map_singleton, List.intercalate_singleton]
      exact .last hParts hNames .space
    | cons s' selectors =>
      have hMore := ih (List.cons_ne_nil _ _) fun t ht => h t (List.mem_cons_of_mem _ ht)
      generalize hText : List.intercalate _ _ ++ [' '] = more at hMore
      have hEnds : Ends (',' :: ([' '] ++ more ++ ['\x7b'])) := .cons (by decide) _
      obtain ⟨parts, hParts, hNames⟩ := parts_chars hFirst hEnds
      have hGroup : Group (s.chars ++ [] ++ ',' :: ([' '] ++ more)) (s :: s' :: selectors) ['\x7b'] :=
        .cons hParts hNames .nil .space hMore
      rw [List.append_nil, ← hText] at hGroup
      rw [List.map_cons, List.map_cons, List.intercalate_cons_cons, List.append_assoc,
        List.append_assoc]
      exact hGroup

end Selector

/-! ## Rules -/

structure Declaration.Legible (d : Declaration Float) : Prop where
  name : IsName d.name
  value : d.value.Legible

def Declaration.readBack (d : Declaration Float) : Declaration Float :=
  { d with value := d.value.readBack }

theorem Declaration.isDeclaration_chars {d : Declaration Float} (h : d.Legible) :
    IsDeclaration d.chars d.readBack := by
  have hColon : Ends [':'] := .cons (by decide) _
  have hSemicolon : Ends [';'] := .cons (by decide) _
  have hDeclaration :
      IsDeclaration (d.name.toList ++ [] ++ ':' :: ([' '] ++ d.value.chars ++ [] ++ [';']))
        ⟨String.ofList d.name.toList, d.value.readBack⟩ :=
    .mk (h.name.derived hColon) .nil .space (Value.isValue_chars h.value hSemicolon) .nil
  rw [String.ofList_toList, List.append_nil, List.append_nil] at hDeclaration
  rw [chars, List.append_assoc]
  exact hDeclaration

structure Rule.Legible (r : Rule) : Prop where
  nonempty : r.selectors ≠ []
  selectors : ∀ s ∈ r.selectors, s.Named
  declarations : ∀ d ∈ r.declarations, d.Legible

def Rule.readBack (r : Rule) : Rule :=
  ⟨Selector.bySpecificity r.selectors, r.declarations.map Declaration.readBack⟩

/-- The blank before each declaration can as well be the one behind what precedes it. -/
theorem spaced_chars {ds : List (Declaration Float)} (h : ∀ d ∈ ds, d.Legible) :
    ∃ body, ds.flatMap (fun d => ' ' :: d.chars) ++ [' '] = ' ' :: body ∧
      Spaced IsDeclaration body (ds.map Declaration.readBack) := by
  induction ds with
  | nil => exact ⟨[], rfl, .nil⟩
  | cons d ds ih =>
    obtain ⟨body, hBody, hSpaced⟩ := ih fun other hOther => h other (List.mem_cons_of_mem _ hOther)
    refine ⟨d.chars ++ [' '] ++ body, ?_,
      .cons (Declaration.isDeclaration_chars (h d List.mem_cons_self)) .space hSpaced⟩
    rw [List.flatMap_cons, List.append_assoc, hBody, List.append_assoc]
    rfl

theorem Rule.isRule_chars {r : Rule} (h : r.Legible) : IsRule r.chars r.readBack := by
  have hGroup := Selector.group_chars h.nonempty h.selectors
  obtain ⟨body, hBody, hSpaced⟩ := spaced_chars h.declarations
  have hRule := IsRule.mk hGroup (Selector.ranked_iff.mpr rfl) .space hSpaced
  have hChars : r.chars = List.intercalate [',', ' '] (r.selectors.map Selector.chars) ++ [' '] ++
      '\x7b' :: ([' '] ++ body ++ ['\x7d']) := by
    rw [chars, List.singleton_append, ← hBody]
    simp only [List.append_assoc, List.cons_append, List.nil_append]
  rw [hChars]
  exact hRule

end BlockFlow
