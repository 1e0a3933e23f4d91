import BlockFlow.Sheet.Rule

/-! # Styles

A style gives values to properties; each property has at most one value. A list of declarations
becomes a style by setting one property after another, so that the last declaration of a property
counts.
-/

namespace BlockFlow

/-- The values of some properties, in the order in which the properties were first set. -/
structure Style (ν : Type) where
  entries : List (String × Value ν)
  deriving DecidableEq, BEq, Repr

namespace Style

variable {ν μ : Type}

def empty : Style ν := ⟨[]⟩

def setIn (name : String) (value : Value ν) : List (String × Value ν) → List (String × Value ν)
  | [] => [(name, value)]
  | (n, v) :: rest => if n = name then (n, value) :: rest else (n, v) :: setIn name value rest

def set (s : Style ν) (name : String) (value : Value ν) : Style ν :=
  ⟨setIn name value s.entries⟩

/-- The value of a property, if it has one. -/
def get? (s : Style ν) (name : String) : Option (Value ν) := s.entries.lookup name

/-- The value of a property, else that of another one, else a value given for the case. -/
def lookup (s : Style ν) (name fallback : String) (default : Value ν) : Value ν :=
  (s.get? name <|> s.get? fallback).getD default

def ofDeclarations (declarations : List (Declaration ν)) : Style ν :=
  declarations.foldl (fun s d => s.set d.name d.value) empty

def map (f : ν → μ) (s : Style ν) : Style μ :=
  ⟨s.entries.map fun (name, value) => (name, value.map f)⟩

theorem lookup_entry (name n : String) (v : Value ν) (rest : List (String × Value ν)) :
    List.lookup name ((n, v) :: rest) = if name = n then some v else List.lookup name rest := by
  by_cases h : name = n
  · simp [h]
  · simp [List.lookup_cons, h, beq_false_of_ne h]

/-- A property that was set has its new value, and every other one keeps its value. -/
theorem get?_set (s : Style ν) (name other : String) (value : Value ν) :
    (s.set name value).get? other = if other = name then some value else s.get? other := by
  simp only [get?, set]
  induction s.entries with
  | nil => exact lookup_entry other name value []
  | cons entry rest ih =>
    obtain ⟨n, v⟩ := entry
    by_cases hn : n = name
    · simp only [setIn, hn, if_true, lookup_entry]
      split <;> rfl
    · simp only [setIn, hn, if_false, lookup_entry, ih]
      by_cases ho : other = n
      · simp [ho, hn]
      · simp [ho]

end Style

inductive Display
  | block
  | inline
  | hidden
  deriving DecidableEq, Repr

namespace Display

def word : Display → String
  | block => "block"
  | inline => "inline"
  | hidden => "none"

end Display

/-- The display of a style: what the keywords `block` and `none` say, and inline otherwise. -/
def Style.display {ν : Type} (s : Style ν) : Display :=
  match s.get? "display" with
  | some (.keyword name) =>
    if name = "block" then .block else if name = "none" then .hidden else .inline
  | _ => .inline

end BlockFlow
