import BlockFlow.Proofs.Sheet.RoundTrip
import BlockFlow.Proofs.Styled.Loading
import Mathlib.Algebra.Order.Field.Rat

/-! # Trees with exact lengths

A finite length stands for an exact number. No length that was read has a sign, so that the exact
numbers of a tree that was loaded are not negative.
-/

namespace BlockFlow

/-- The exact value of a finite number. -/
def Number.exact (x : Float) : Rat :=
  let value : Rat := units (magnitude x) / unitsPerOne
  if isNegative x then -value else value

theorem Number.exact_nonneg {x : Float} (h : isNegative x = false) : 0 ≤ exact x := by
  rw [exact, h]
  exact div_nonneg (Nat.cast_nonneg _) (Nat.cast_nonneg _)

variable {ν μ : Type} (f : ν → μ)

theorem Style.get?_map (s : Style ν) (name : String) :
    (s.map f).get? name = (s.get? name).map (Value.map f) := by
  unfold Style.map get?
  induction s.entries with
  | nil => rfl
  | cons entry rest ih =>
    obtain ⟨n, value⟩ := entry
    rw [List.map_cons, lookup_entry, lookup_entry, ih]
    split <;> rfl

theorem Style.display_map (s : Style ν) : (s.map f).display = s.display := by
  rw [display, display, get?_map]
  cases s.get? "display" with
  | none => rfl
  | some value => cases value <;> rfl

namespace Element

theorem style_map (e : Element ν) : (e.map f).style = e.style.map f := by
  obtain ⟨tag, style, children⟩ := e
  rw [map]
  rfl

theorem children_map (e : Element ν) : (e.map f).children = e.children.map (map f) := by
  obtain ⟨tag, style, children⟩ := e
  rw [map, ← mapAll_eq_map]
  rfl

theorem display_map (e : Element ν) : (e.map f).display = e.display := by
  rw [display, style_map, Style.display_map]
  rfl

theorem at?_map (e : Element ν) (path : TreePath) :
    (e.map f).at? path = (e.at? path).map (map f) := by
  induction path generalizing e with
  | nil => rfl
  | cons i path ih =>
    rw [at?, at?, children_map, List.getElem?_map]
    cases e.children[i]? with
    | none => rfl
    | some child => exact ih child

end Element

/-! ## Lengths without a sign -/

def Style.NonNegative (s : Style Rat) : Prop := ∀ name x, s.get? name = some (.length x) → 0 ≤ x

theorem Element.nonNegative_of_ofJson {value : Json} {e : Element Float}
    (h : ofJson value = .ok e) {path : TreePath} {x : Element Rat}
    (hx : (e.map Number.exact).at? path = some x) : x.style.NonNegative := by
  rw [at?_map] at hx
  obtain ⟨loaded, hLoaded, rfl⟩ := Option.map_eq_some_iff.mp hx
  have hRel := rel_of_ofJsonAt h path
  rw [hLoaded] at hRel
  generalize value.at? path = node? at hRel
  cases hRel with
  | some hDescribes =>
    obtain ⟨ds, hParse, hValues⟩ := hDescribes.values
    intro name x hLength
    rw [style_map, Style.get?_map, hValues] at hLength
    obtain ⟨v, hLast, hExact⟩ := Option.map_eq_some_iff.mp hLength
    obtain ⟨d, hd, rfl⟩ := Option.map_eq_some_iff.mp hLast
    have hLegible := Declaration.legible_of_parseList hParse d
      (List.mem_of_mem_filter (List.mem_of_getLast? hd))
    cases hValue : d.value with
    | length y =>
      have hSign := hLegible.value
      rw [hValue] at hExact hSign
      obtain rfl := Value.length.inj hExact
      exact Number.exact_nonneg hSign.1
    | keyword name =>
      rw [hValue] at hExact
      cases hExact
    | color c =>
      rw [hValue] at hExact
      cases hExact

end BlockFlow
