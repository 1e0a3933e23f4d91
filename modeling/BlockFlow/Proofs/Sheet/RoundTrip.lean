import BlockFlow.Proofs.Sheet.Opening
import BlockFlow.Proofs.Sheet.Printing

/-! # Printed rules that read back

A rule is read back from its text exactly if its selectors are in order and all that it names can be
named. What reading gives has legible names and values; printing these gives a derived text, and a
text is derived for one sheet only.
-/

namespace BlockFlow

open Grammar

/-! ## What reading gives -/

theorem Grammar.Sheet.unique {text : List Char} {rules rules' : List Rule}
    (h : Sheet text rules) (h' : Sheet text rules') : rules = rules' := by
  rw [← reading_readRules_iff] at h h'
  rw [h] at h'
  exact (Prod.mk.inj (Except.ok.inj h')).1

theorem Grammar.Spaced.exists_item {α : Type} {Item : List Char → α → Prop} {text : List Char}
    {as : List α} (h : Spaced Item text as) {a : α} (ha : a ∈ as) : ∃ text', Item text' a := by
  induction h with
  | nil => cases ha
  | cons hItem _ _ ih =>
    rcases List.mem_cons.mp ha with rfl | ha
    · exact ⟨_, hItem⟩
    · exact ih ha

def SelectorPart.Named : SelectorPart → Prop
  | tag name | id name | className name => IsName name
  | universal => True

theorem Grammar.Parts.named {text next : List Char} {parts : List SelectorPart}
    (h : Parts text parts next) {part : SelectorPart} (hMem : part ∈ parts) : part.Named := by
  induction h with
  | nil => cases hMem
  | cons hPart _ ih =>
    rcases List.mem_cons.mp hMem with rfl | hMem
    · cases hPart with
      | id hName => exact hName.isName
      | className hName => exact hName.isName
      | universal => trivial
      | tag hName => exact hName.isName
    · exact ih hMem

theorem isName_of_mem_filterMap {parts : List SelectorPart} (hParts : ∀ part ∈ parts, part.Named)
    {pick : SelectorPart → Option String}
    (hPick : ∀ part name, pick part = some name → part.Named → IsName name) {name : String}
    (h : name ∈ parts.filterMap pick) : IsName name := by
  obtain ⟨part, hPart, hName⟩ := List.mem_filterMap.mp h
  exact hPick part name hName (hParts part hPart)

theorem Grammar.Names.named {parts : List SelectorPart} {s : Selector} (h : Names parts s)
    (hParts : ∀ part ∈ parts, part.Named) : s.Named := by
  constructor
  · intro name hName
    rw [h.tag] at hName
    refine isName_of_mem_filterMap hParts ?_ (List.mem_of_getLast? hName)
    intro part name hPick hNamed
    cases part <;> cases hPick
    exact hNamed
  · intro name hName
    rw [h.id] at hName
    refine isName_of_mem_filterMap hParts ?_ (List.mem_of_getLast? hName)
    intro part name hPick hNamed
    cases part <;> cases hPick
    exact hNamed
  · intro name hName
    rw [h.classes] at hName
    refine isName_of_mem_filterMap hParts ?_ hName
    intro part name hPick hNamed
    cases part <;> cases hPick
    exact hNamed

theorem Grammar.Group.legible {text next : List Char} {selectors : List Selector}
    (h : Group text selectors next) : selectors ≠ [] ∧ ∀ s ∈ selectors, s.Named := by
  induction h with
  | last hParts hNames _ =>
    refine ⟨List.cons_ne_nil _ _, ?_⟩
    intro s hs
    rw [List.mem_singleton.mp hs]
    exact hNames.named fun _ => hParts.named
  | cons hParts hNames _ _ _ ih =>
    refine ⟨List.cons_ne_nil _ _, ?_⟩
    intro s hs
    rcases List.mem_cons.mp hs with rfl | hs
    · exact hNames.named fun _ => hParts.named
    · exact ih.2 s hs

theorem Grammar.IsDeclaration.legible {text : List Char} {d : Declaration Float}
    (h : IsDeclaration text d) : d.Legible := by
  cases h with
  | mk hName _ _ hValue _ => exact ⟨hName.isName, hValue.legible⟩

theorem Grammar.IsRule.legible {text : List Char} {r : Rule} (h : IsRule text r) :
    r.Legible ∧ Selector.Descending r.selectors := by
  cases h with
  | @mk group written ranked blanks body ds hGroup hRanked _ hDeclarations =>
    obtain ⟨hNonempty, hNamed⟩ := hGroup.legible
    refine ⟨⟨?_, ?_, ?_⟩, hRanked.descending⟩
    · intro hNil
      obtain ⟨s, hs⟩ := List.exists_mem_of_ne_nil written hNonempty
      have hMem := Selector.mem_of_ofRank_eq (fun rank => (hRanked.kept rank).symm) hs
      obtain rfl : ranked = [] := hNil
      cases hMem
    · intro s hs
      exact hNamed s (Selector.mem_of_ofRank_eq hRanked.kept hs)
    · intro d hd
      obtain ⟨text', hText⟩ := hDeclarations.exists_item hd
      exact hText.legible

theorem legible_of_readDeclarations {text rest : List Char} {ds : List (Declaration Float)}
    (h : readDeclarations text = .ok (ds, rest)) : ∀ d ∈ ds, d.Legible := by
  fun_induction readDeclarations text generalizing ds with
  | case1 text hSkip =>
    cases h
    exact List.forall_mem_nil _
  | case2 text c more hSkip failure hRead => cases h
  | case3 text c more hSkip d after hRead _ ih =>
    obtain ⟨others, hOthers, rfl⟩ := Reading.map_eq_ok_iff.mp h
    obtain ⟨read, -, hDeclaration⟩ := Declaration.read_eq_ok_iff.mp hRead
    exact List.forall_mem_cons.mpr ⟨hDeclaration.legible, ih hOthers⟩

theorem Declaration.legible_of_parseList {source : String} {ds : List (Declaration Float)}
    (h : Declaration.parseList source = .ok ds) : ∀ d ∈ ds, d.Legible := by
  obtain ⟨rest, hRead⟩ := Reading.result_eq_ok_iff.mp h
  exact legible_of_readDeclarations hRead

/-! ## What printing keeps -/

/-- The values that their text keeps: keywords that do not start like a length, finite lengths
without a sign, and colors of full opacity. -/
def Value.Faithful : Value Float → Prop
  | keyword name => IsName name ∧ ∀ c ∈ name.toList.head?, c.isDigit = false
  | length x => Number.isFinite x = true ∧ Number.isNegative x = false
  | color c => c.alpha = 255

structure Declaration.Faithful (d : Declaration Float) : Prop where
  name : IsName d.name
  value : d.value.Faithful

structure Rule.Faithful (r : Rule) : Prop where
  nonempty : r.selectors ≠ []
  descending : Selector.Descending r.selectors
  selectors : ∀ s ∈ r.selectors, s.Named
  declarations : ∀ d ∈ r.declarations, d.Faithful

theorem Value.faithful_iff {v : Value Float} : v.Faithful ↔ v.Legible ∧ v.readBack = v := by
  cases v with
  | keyword name => exact ⟨fun h => ⟨h, rfl⟩, And.left⟩
  | length x =>
    constructor
    · rintro ⟨hFinite, hSign⟩
      exact ⟨⟨hSign, Nat.le_of_lt (of_decide_eq_true hFinite)⟩, if_pos hFinite⟩
    · rintro ⟨⟨hSign, -⟩, hBack⟩
      refine ⟨?_, hSign⟩
      by_contra hInfinite
      rw [readBack, if_neg hInfinite] at hBack
      cases hBack
  | color c => exact ⟨fun h => ⟨h, rfl⟩, And.left⟩

theorem Declaration.faithful_iff {d : Declaration Float} :
    d.Faithful ↔ d.Legible ∧ d.readBack = d := by
  obtain ⟨name, value⟩ := d
  constructor
  · rintro ⟨hName, hValue⟩
    obtain ⟨hLegible, hBack⟩ := Value.faithful_iff.mp hValue
    exact ⟨⟨hName, hLegible⟩, congrArg (Declaration.mk name) hBack⟩
  · rintro ⟨⟨hName, hLegible⟩, hBack⟩
    exact ⟨hName, Value.faithful_iff.mpr ⟨hLegible, (Declaration.mk.inj hBack).2⟩⟩

theorem Rule.faithful_iff {r : Rule} : r.Faithful ↔ r.Legible ∧ r.readBack = r := by
  obtain ⟨selectors, declarations⟩ := r
  have hMap : declarations.map Declaration.readBack = declarations ↔
      ∀ d ∈ declarations, d.readBack = d := by
    have h := List.map_inj_left (f := Declaration.readBack) (g := id) (l := declarations)
    rwa [List.map_id] at h
  constructor
  · rintro ⟨hNonempty, hDescending, hSelectors, hDeclarations⟩
    refine ⟨⟨hNonempty, hSelectors, ?_⟩, ?_⟩
    · intro d hd
      exact (Declaration.faithful_iff.mp (hDeclarations d hd)).1
    · have hBack : declarations.map Declaration.readBack = declarations :=
        hMap.mpr fun d hd => (Declaration.faithful_iff.mp (hDeclarations d hd)).2
      rw [readBack, hBack, Selector.bySpecificity_eq_self_iff.mpr hDescending]
  · rintro ⟨⟨hNonempty, hSelectors, hLegible⟩, hBack⟩
    obtain ⟨hOrder, hDeclarations⟩ := Rule.mk.inj hBack
    refine ⟨hNonempty, Selector.bySpecificity_eq_self_iff.mp hOrder, hSelectors, ?_⟩
    intro d hd
    exact Declaration.faithful_iff.mpr ⟨hLegible d hd, hMap.mp hDeclarations d hd⟩

theorem Rule.Legible.sheet_chars {r : Rule} (h : r.Legible) : Sheet r.chars [r.readBack] :=
  ⟨[], r.chars, rfl, .nil, .singleton (Rule.isRule_chars h)⟩

theorem sheet_chars_iff {r : Rule} : Sheet r.chars [r] ↔ r.Faithful := by
  rw [Rule.faithful_iff]
  constructor
  · intro hDerived
    have ⟨_, _, _, _, hRules⟩ := hDerived
    obtain ⟨text, hRule⟩ := hRules.exists_item List.mem_cons_self
    have hLegible := hRule.legible.1
    exact ⟨hLegible, (List.cons.inj (hLegible.sheet_chars.unique hDerived)).1⟩
  · rintro ⟨hLegible, hBack⟩
    have h := hLegible.sheet_chars
    rw [hBack] at h
    exact h

/-- A rule is read back from its text, alone and unchanged, exactly if it is faithful. -/
theorem parse_text_eq_ok_iff (r : Rule) :
    (Stylesheet.parse .strict r.text).result = .ok ⟨[r]⟩ ↔ r.Faithful := by
  rw [result_parse_eq_ok_iff, reading_readRules_iff, Rule.text, String.toList_ofList,
    sheet_chars_iff]

end BlockFlow
