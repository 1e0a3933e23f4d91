/-! # Files by path

What a command finds at a path, and a directory that is held in memory: the files are given by their
paths, and every directory on such a path exists. Above and beside that directory there are only
directories without a name.
-/

namespace BlockFlow

inductive FileEntry
  | missing
  | directory
  | file (bytes : ByteArray)

namespace FilePath

def pieces (path : String) : List String := path.splitOn "/"

def fileName (path : String) : String :=
  (((pieces path).filter fun piece => piece ≠ "" && piece ≠ ".").getLast?).getD ""

end FilePath

/-- The files of a directory, each by the names that lead to it. -/
structure Directory where
  files : List (List String × ByteArray)

namespace Directory

def empty : Directory := ⟨[]⟩

def ofFiles (files : List (String × ByteArray)) : Directory :=
  ⟨files.map fun (path, bytes) =>
    ((FilePath.pieces path).filter fun piece => piece ≠ "" && piece ≠ ".", bytes)⟩

def at? (d : Directory) (way : List String) : FileEntry :=
  match d.files.find? fun f => f.1 = way with
  | some f => .file f.2
  | none =>
    if way.isEmpty || d.files.any fun f => way.isPrefixOf f.1 then .directory else .missing

/-- What the pieces of a path lead to, from a place in a directory on. A piece leads on only from a
directory; an empty piece and a dot stay there, and two dots go back, or else up and out. -/
def walk (d : Directory) (way : List String) : List String → FileEntry
  | [] => d.at? way
  | piece :: rest =>
    match d.at? way with
    | .directory =>
      if piece = "" || piece = "." then walk d way rest
      else if piece = ".." then
        if way.isEmpty then walk empty [] rest else walk d way.dropLast rest
      else walk d (way ++ [piece]) rest
    | _ => .missing

/-- What is found at a path in the directory. A path that begins with a slash leads elsewhere. -/
def entry (d : Directory) (path : String) : FileEntry :=
  match FilePath.pieces path with
  | [""] => .missing
  | "" :: pieces => empty.walk [] pieces
  | pieces => d.walk [] pieces

end Directory

end BlockFlow
