/-! # Selectors

A selector names a tag, an id and any number of classes; one that names nothing matches everything.
Selectors are ranked by the number of ids, then of classes, then of tags that they name.
-/

namespace BlockFlow

structure Specificity where
  ids : Nat
  classes : Nat
  tags : Nat
  deriving DecidableEq, Repr

namespace Specificity

/-- The order of ranks: ids count before classes, and classes before tags. -/
def atMost (a b : Specificity) : Bool :=
  a.ids < b.ids || (a.ids == b.ids
    && (a.classes < b.classes || (a.classes == b.classes && a.tags ≤ b.tags)))

end Specificity

structure Selector where
  tag : Option String
  id : Option String
  classes : List String
  deriving DecidableEq, BEq, Repr

inductive SelectorPart
  | tag (name : String)
  | id (name : String)
  | className (name : String)
  | universal
  deriving DecidableEq, Repr

namespace Selector

def everything : Selector := ⟨none, none, []⟩

/-- The selector with one more part after those it was written in: a tag or an id takes the place of
an earlier one, and a class is added to the others. -/
def add (s : Selector) : SelectorPart → Selector
  | .tag name => { s with tag := some name }
  | .id name => { s with id := some name }
  | .className name => { s with classes := s.classes ++ [name] }
  | .universal => s

def ofParts (parts : List SelectorPart) : Selector := parts.foldl add everything

def specificity (s : Selector) : Specificity :=
  ⟨if s.id.isSome then 1 else 0, s.classes.length, if s.tag.isSome then 1 else 0⟩

/-- The text of a selector: an asterisk if nothing else would be written. -/
def chars (s : Selector) : List Char :=
  let tag := (s.tag.getD "").toList
  let id := match s.id with
    | some name => '#' :: name.toList
    | none => []
  match tag ++ id ++ s.classes.flatMap fun name => '.' :: name.toList with
  | [] => ['*']
  | text => text

def text (s : Selector) : String := String.ofList s.chars

/-- The selectors from the highest rank to the lowest; those of one rank keep their order. -/
def bySpecificity (selectors : List Selector) : List Selector :=
  selectors.mergeSort fun a b => b.specificity.atMost a.specificity

end Selector

end BlockFlow
