import BlockFlow.Proofs.Sheet.Ranking
import BlockFlow.Sheet.Reader.Rule

/-! # The grammar of style sheets

Each production relates the text that it derives to what this text stands for. Where a production
can end in a name it is also told what follows, because a name is as long as it can be; it looks at
the first character of that only. Declarations, rules and sheets end in a mark and are told nothing,
so that derived texts can be put one after another.
-/

namespace BlockFlow.Grammar

def Blanks (text : List Char) : Prop := ∀ c ∈ text, Text.isBlank c = true

/-- A name that ends because of what follows it: a maximal run of the characters of names. -/
structure Name (name next : List Char) : Prop where
  nonempty : name ≠ []
  chars : ∀ c ∈ name, isNameChar c = true
  maximal : ∀ c ∈ next.head?, isNameChar c = false

/-- Items one after another, with blanks after each of them. -/
inductive Spaced {α : Type} (Item : List Char → α → Prop) : List Char → List α → Prop
  | nil : Spaced Item [] []
  | cons {text a blanks more as} : Item text a → Blanks blanks → Spaced Item more as →
      Spaced Item (text ++ blanks ++ more) (a :: as)

/-! ## Selectors -/

inductive Part : List Char → SelectorPart → List Char → Prop
  | id {name next} : Name name next → Part ('#' :: name) (.id (String.ofList name)) next
  | className {name next} :
      Name name next → Part ('.' :: name) (.className (String.ofList name)) next
  | universal {next} : Part ['*'] .universal next
  | tag {name next} : Name name next → Part name (.tag (String.ofList name)) next

inductive Parts : List Char → List SelectorPart → List Char → Prop
  | nil {next} : Parts [] [] next
  | cons {text part more parts next} : Part text part (more ++ next) → Parts more parts next →
      Parts (text ++ more) (part :: parts) next

/-- What the parts of a selector stand for: the last tag, the last id and all classes in order. -/
structure Names (parts : List SelectorPart) (s : Selector) : Prop where
  tag : s.tag = (parts.filterMap fun | .tag name => some name | _ => none).getLast?
  id : s.id = (parts.filterMap fun | .id name => some name | _ => none).getLast?
  classes : s.classes = parts.filterMap fun | .className name => some name | _ => none

inductive Group : List Char → List Selector → List Char → Prop
  | last {text parts s blanks next} : Parts text parts (blanks ++ next) → Names parts s →
      Blanks blanks → Group (text ++ blanks) [s] next
  | cons {text parts s blanks blanks' more selectors next} :
      Parts text parts (blanks ++ ',' :: (blanks' ++ more ++ next)) → Names parts s →
      Blanks blanks → Blanks blanks' → Group more selectors next →
      Group (text ++ blanks ++ ',' :: (blanks' ++ more)) (s :: selectors) next

/-! ## Declarations -/

/-- A digit and any number of digits and points, with at most one point in all. -/
structure Number (text : List Char) : Prop where
  digit : ∃ c more, text = c :: more ∧ c.isDigit = true
  chars : ∀ c ∈ text, c.isDigit = true ∨ c = '.'
  points : text.count '.' ≤ 1

/-- Two hexadecimal digits. -/
def Channel (text : List Char) (channel : UInt8) : Prop :=
  ∃ a b x y, text = [a, b] ∧ Text.hexValue? a = some x ∧ Text.hexValue? b = some y ∧
    channel = UInt8.ofNat (16 * x + y)

inductive IsValue : List Char → Value Float → List Char → Prop
  | length {number unit next} : Number number → Name unit next →
      unit.map Char.toLower = ['p', 'x'] →
      IsValue (number ++ unit) (.length (numeralValue number)) next
  | color {r g b red green blue next} : Channel r red → Channel g green → Channel b blue →
      IsValue ('#' :: (r ++ g ++ b)) (.color ⟨red, green, blue, 255⟩) next
  | keyword {name next} : Name name next → (∀ c ∈ name.head?, c.isDigit = false) →
      IsValue name (.keyword (String.ofList name)) next

inductive IsDeclaration : List Char → Declaration Float → Prop
  | mk {name blanks blanks' text value blanks''} : Name name (blanks ++ [':']) → Blanks blanks →
      Blanks blanks' → IsValue text value (blanks'' ++ [';']) → Blanks blanks'' →
      IsDeclaration (name ++ blanks ++ ':' :: (blanks' ++ text ++ blanks'' ++ [';']))
        ⟨String.ofList name, value⟩

/-! ## Rules -/

inductive IsRule : List Char → Rule → Prop
  | mk {group written ranked blanks body ds} : Group group written ['\x7b'] →
      Selector.Ranked written ranked → Blanks blanks → Spaced IsDeclaration body ds →
      IsRule (group ++ '\x7b' :: (blanks ++ body ++ ['\x7d'])) ⟨ranked, ds⟩

def Sheet (text : List Char) (rules : List Rule) : Prop :=
  ∃ blanks more, text = blanks ++ more ∧ Blanks blanks ∧ Spaced IsRule more rules

end BlockFlow.Grammar
