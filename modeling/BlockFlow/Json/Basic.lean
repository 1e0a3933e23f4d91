/-! # JSON values

Whole numbers and other numbers are told apart, as their texts are. The members of an object are
kept as written; of several with one name, the last counts.
-/

namespace BlockFlow

inductive Json
  | null
  | bool (b : Bool)
  | integer (n : Int)
  | real (x : Float)
  | string (s : String)
  | array (items : List Json)
  | object (members : List (String × Json))
  deriving Repr, BEq

instance : Inhabited Json := ⟨.null⟩

namespace Json

def lookup? (members : List (String × Json)) (name : String) : Option Json :=
  (members.reverse.find? fun m => m.1 == name).map (·.2)

/-- The kind of a value, in the words of an error message. -/
def kind : Json → String
  | null => "NoneType"
  | bool _ => "bool"
  | integer _ => "int"
  | real _ => "float"
  | string _ => "str"
  | array _ => "list"
  | object _ => "dict"

end Json

end BlockFlow
