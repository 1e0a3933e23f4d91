/-! # Names

Tags, ids, classes, properties and keywords are names: runs of ASCII letters, digits, hyphens and
low lines. A name that is read is as long as it can be.
-/

namespace BlockFlow

def isNameChar (c : Char) : Bool :=
  c.isAlphanum || c == '-' || c == '_'

/-- The name at the start of a text; it may be empty. -/
def leadingName (text : List Char) : List Char := text.takeWhile isNameChar

def afterName (text : List Char) : List Char := text.dropWhile isNameChar

theorem leadingName_append_afterName (text : List Char) :
    leadingName text ++ afterName text = text :=
  List.takeWhile_append_dropWhile

theorem afterName_suffix (text : List Char) : afterName text <:+ text :=
  List.dropWhile_suffix _

end BlockFlow
