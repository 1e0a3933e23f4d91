import BlockFlow.Json.Reader
import BlockFlow.Sheet.Parse
import BlockFlow.Styled.Element
import BlockFlow.Text.Decoded

/-! # Styled trees from JSON

Each node of the data is an object with at most a tag, a style text and a list of children. The
first fault in document order is reported: one in the shape of a node by the path that leads to it,
one in a style text by its line and column.
-/

namespace BlockFlow

inductive NodeFault
  | notObject (kind : String)
  | unknownKeys (keys : List String)
  | tagNotString
  | styleNotString
  | childrenNotList
  deriving DecidableEq, Repr

namespace NodeFault

def message : NodeFault → String
  | notObject kind => "expected an object, got " ++ kind
  | unknownKeys keys => "unknown key(s) " ++ ", ".intercalate keys
  | tagNotString => "'tag' must be a string"
  | styleNotString => "'style' must be a string"
  | childrenNotList => "'children' must be a list"

end NodeFault

/-- The way from the root of a tree to a node: the number of each child on it. -/
abbrev TreePath := List Nat

def TreePath.text (path : TreePath) : String :=
  String.join ("root" :: path.map fun i => ".children[" ++ toString i ++ "]")

inductive TreeError
  | node (path : TreePath) (fault : NodeFault)
  | style (path : TreePath) (error : SyntaxError)
  deriving DecidableEq, Repr

namespace TreeError

def message : TreeError → String
  | node path fault => path.text ++ ": " ++ fault.message
  | style _ error => error.message

end TreeError

/-- What the data of a node gives, its children being data still. -/
structure NodeData where
  tag : String
  style : String
  children : List Json

namespace NodeData

def knownKeys : List String := ["tag", "style", "children"]

/-- The keys of an object that no node has, each one once and in ascending order. -/
def unknownKeys (members : List (String × Json)) : List String :=
  (((members.map (·.1)).filter fun key => !knownKeys.contains key).eraseDups).mergeSort
    fun a b => a ≤ b

/-- A string, or the empty one if there is none. -/
def stringOf? (fault : NodeFault) : Option Json → Except NodeFault String
  | none => .ok ""
  | some (.string s) => .ok s
  | some _ => .error fault

/-- A list, or the empty one if there is none. -/
def listOf? (fault : NodeFault) : Option Json → Except NodeFault (List Json)
  | none => .ok []
  | some (.array items) => .ok items
  | some _ => .error fault

/-- What the members of an object give, if they are those of a node. -/
def ofMembers (members : List (String × Json)) : Except NodeFault NodeData :=
  match unknownKeys members with
  | [] => do
    let tag ← stringOf? .tagNotString (Json.lookup? members "tag")
    let style ← stringOf? .styleNotString (Json.lookup? members "style")
    let children ← listOf? .childrenNotList (Json.lookup? members "children")
    return { tag, style, children }
  | keys => .error (.unknownKeys keys)

/-- What a value gives, if it has the shape of a node. -/
def ofJson : Json → Except NodeFault NodeData
  | .object members => ofMembers members
  | value => .error (.notObject value.kind)

theorem mem_of_lookup? {members : List (String × Json)} {name : String} {value : Json}
    (h : Json.lookup? members name = some value) : (name, value) ∈ members := by
  obtain ⟨m, hm, rfl⟩ := Option.map_eq_some_iff.1 h
  have hname := List.find?_some hm
  have hmem := List.mem_of_find?_eq_some hm
  rw [List.mem_reverse] at hmem
  have : m.1 = name := eq_of_beq hname
  rwa [← this]

theorem sizeOf_children_lt {value : Json} {data : NodeData} (h : ofJson value = .ok data) :
    sizeOf data.children < sizeOf value := by
  unfold ofJson at h
  split at h
  · next members =>
    unfold ofMembers at h
    split at h
    · cases htag : stringOf? .tagNotString (Json.lookup? members "tag") with
      | error f => simp [htag, bind, Except.bind] at h
      | ok tag =>
      cases hstyle : stringOf? .styleNotString (Json.lookup? members "style") with
      | error f => simp [htag, hstyle, bind, Except.bind] at h
      | ok style =>
      cases hlookup : Json.lookup? members "children" with
      | none =>
        simp only [htag, hstyle, hlookup, listOf?, bind, Except.bind, pure, Except.pure,
          Except.ok.injEq] at h
        subst h
        cases members <;> simp +arith
      | some children =>
        cases children with
        | array items =>
          simp only [htag, hstyle, hlookup, listOf?, bind, Except.bind, pure, Except.pure,
            Except.ok.injEq] at h
          subst h
          have := List.sizeOf_lt_of_mem (mem_of_lookup? hlookup)
          simp only [Prod.mk.sizeOf_spec, Json.array.sizeOf_spec, Json.object.sizeOf_spec] at this ⊢
          omega
        | _ => simp [htag, hstyle, hlookup, listOf?, bind, Except.bind] at h
    · cases h
  · cases h

end NodeData

namespace Element

mutual

def ofJsonAt (path : TreePath) (value : Json) : Except TreeError (Element Float) :=
  match _h : NodeData.ofJson value with
  | .error fault => .error (.node path fault)
  | .ok data =>
    match Declaration.parseList data.style with
    | .error error => .error (.style path error)
    | .ok declarations =>
      (ofJsonItems path 0 data.children).map
        (mk data.tag (Style.ofDeclarations declarations))
termination_by sizeOf value
decreasing_by exact NodeData.sizeOf_children_lt _h

/-- The elements that a list of data gives, its first item being the child of that number. -/
def ofJsonItems (path : TreePath) (i : Nat) (items : List Json) :
    Except TreeError (List (Element Float)) :=
  match items with
  | [] => .ok []
  | item :: rest => do
    let e ← ofJsonAt (path ++ [i]) item
    let es ← ofJsonItems path (i + 1) rest
    return e :: es
termination_by sizeOf items

end

def ofJson (value : Json) : Except TreeError (Element Float) := ofJsonAt [] value

end Element

inductive TreeFileError
  | notUtf8 (path : String) (error : Text.DecodeError)
  | notJson (path : String) (error : Json.TextError)
  | beyond (limit : Json.Limit)
  | tree (error : TreeError)
  deriving DecidableEq, Repr

namespace TreeFileError

def message : TreeFileError → String
  | notUtf8 path error => path ++ " is not valid UTF-8: " ++ error.message
  | notJson path error => "Invalid JSON in " ++ path ++ ": " ++ error.message
  | beyond limit => limit.message
  | tree error => error.message

end TreeFileError

/-- The data that a file holds, whatever tree it may be. -/
def Json.ofFile (path : String) (bytes : ByteArray) : Except TreeFileError Json :=
  match Text.decode bytes with
  | .error e => .error (.notUtf8 path e)
  | .ok text =>
    match Json.parse text with
    | .ok value => .ok value
    | .error (.malformed m rest) => .error (.notJson path (.within text m rest))
    | .error (.beyond limit) => .error (.beyond limit)

def Element.ofFile (path : String) (bytes : ByteArray) : Except TreeFileError (Element Float) := do
  let value ← Json.ofFile path bytes
  (Element.ofJson value).mapError .tree

end BlockFlow
