import BlockFlow.Box.Layout

/-! # A store of boxes

Boxes are kept by number. A box names its children by their numbers, so that one box can be a child
in several places; laying it out in one of them changes it in all. The tree that hangs from a box is
read off by `box?`. No box may be among its own descendants.
-/

namespace BlockFlow

structure Cell (ν : Type) where
  kind : BoxKind ν
  dimensions : Dimensions ν
  children : List Nat

/-- The boxes of a store, numbered from zero. -/
structure Store (ν : Type) where
  cells : Array (Cell ν)

namespace Store

variable {ν : Type}

def empty : Store ν := ⟨#[]⟩

def size (s : Store ν) : Nat := s.cells.size

def get? (s : Store ν) (id : Nat) : Option (Cell ν) := s.cells[id]?

def modify (s : Store ν) (id : Nat) (f : Cell ν → Cell ν) : Store ν := ⟨s.cells.modify id f⟩

def modifyDimensions (s : Store ν) (id : Nat) (f : Dimensions ν → Dimensions ν) : Store ν :=
  s.modify id fun cell => { cell with dimensions := f cell.dimensions }

/-- The store with one more box, which gets the next number. -/
def push (s : Store ν) (cell : Cell ν) : Store ν := ⟨s.cells.push cell⟩

/-- The tree that hangs from a box, down to a depth. -/
def treeWithin? (s : Store ν) : (depth : Nat) → (id : Nat) → Option (Box ν)
  | 0, _ => none
  | depth + 1, id => do
    let cell ← s.get? id
    let children ← cell.children.mapM (s.treeWithin? depth)
    return .mk cell.kind cell.dimensions children

/-- The tree that hangs from a box. No path in it is longer than there are boxes. -/
def box? (s : Store ν) (id : Nat) : Option (Box ν) := s.treeWithin? s.size id

mutual

/-- The store with the boxes of a tree, numbered from the root on in the order of the document, and
the number of the root. -/
def addTree (s : Store ν) : Box ν → Nat × Store ν
  | .mk kind dimensions children =>
    let id := s.size
    let (ids, s) := addTrees (s.push ⟨kind, dimensions, []⟩) children
    (id, s.modify id fun cell => { cell with children := ids })

/-- The store with the boxes of several trees, and the numbers of their roots. -/
def addTrees (s : Store ν) : List (Box ν) → List Nat × Store ν
  | [] => ([], s)
  | b :: rest =>
    let (id, s) := addTree s b
    let (ids, s) := addTrees s rest
    (id :: ids, s)

end

def append (s : Store ν) (parent child : Nat) : Store ν :=
  s.modify parent fun cell => { cell with children := cell.children ++ [child] }

def type? (s : Store ν) (id : Nat) : Option BoxType := (s.get? id).map (·.kind.type)

variable [Scalar ν]

/-- The box that a new inline child of a box belongs in: the box itself unless it is a block, else
its last child if that is anonymous, else a new anonymous child. -/
def inlineContainer (s : Store ν) (id : Nat) : Nat × Store ν :=
  match s.get? id with
  | some ⟨.block _, _, children⟩ =>
    let fresh := (s.size, (s.push ⟨.anonymous, .zero, []⟩).append id s.size)
    match children.getLast? with
    | some last => if s.type? last = some .anonymous then (last, s) else fresh
    | none => fresh
  | _ => (id, s)

/-- The style that a box is laid out with, if it has one. -/
def style? (s : Store ν) (id : Nat) : Option (Style ν) :=
  (s.get? id).bind fun cell => cell.kind.element?.map Element.style

def dimensions? (s : Store ν) (id : Nat) : Option (Dimensions ν) := (s.get? id).map (·.dimensions)

/-- The store with the height of a box grown by one of its children. -/
def grow (s : Store ν) (id child : Nat) : Store ν :=
  match s.dimensions? child with
  | some d => s.modifyDimensions id (·.grow d)
  | none => s

/-- A box laid out in place with the given style, down to a depth: its children are laid out one
after another if they are blocks, each in what has become of the box so far. -/
def layoutStyled : (depth : Nat) → Dimensions ν → (id : Nat) → Style ν → Store ν → Store ν
  | 0, _, _, _, s => s
  | depth + 1, containing, id, style, s =>
    let children := ((s.get? id).map (·.children)).getD []
    let placed := s.modifyDimensions id (containing.place style)
    let filled := children.foldl
      (fun s child =>
        match s.get? child, s.dimensions? id with
        | some ⟨.block e, _, _⟩, some d => (layoutStyled depth d child e.style s).grow id child
        | _, _ => s.grow id child)
      placed
    filled.modifyDimensions id (·.settle style)

/-- A box laid out in a containing block: only blocks are. -/
def layout (s : Store ν) (containing : Dimensions ν) (id : Nat) : Store ν :=
  match s.get? id with
  | some ⟨.block e, _, _⟩ => layoutStyled s.size containing id e.style s
  | _ => s

/-- A box laid out as a block, be it one or not; an anonymous box has no style for it. -/
def layoutBlock (s : Store ν) (containing : Dimensions ν) (id : Nat) :
    Except BoxError (Store ν) :=
  match s.style? id with
  | some style => .ok (layoutStyled s.size containing id style s)
  | none => .error .noStyle

end Store

end BlockFlow
