import SpecForest.Source.Scan

/-!
# Source files

A source can be a file, looked up by a path in a folder. A path is the names between its slashes; `.`
stays in a folder and `..` leaves it. What lies outside of the working folder is not known, except that the
folders above it exist.
-/

namespace SpecForest.Source

/-- What a path leads to. -/
inductive Stored
  | missing
  | folder
  | file (content : ByteArray)

/-- The files and folders below the working folder, by the names that lead to them. -/
structure Folder where
  folders : List (List String) := []
  files : List (List String × ByteArray) := []

namespace Folder

/-- What lies behind some names, outermost first. -/
def at? (f : Folder) (names : List String) : Stored :=
  match f.files.find? (·.1 == names) with
  | some (_, content) => .file content
  | none => if names.isEmpty || f.folders.contains names then .folder else .missing

/-- Follows the names of a path from a folder inside the working folder, whose names are given innermost
first, or from a number of levels above it. -/
def follow (f : Folder) (inside : List String) (above : Nat) : List String → Stored
  | [] => if above = 0 then f.at? inside.reverse else .folder
  | name :: rest =>
    match if above = 0 then f.at? inside.reverse else .folder with
    | .folder =>
      if name == "" || name == "." then f.follow inside above rest
      else if name == ".." then
        match inside with
        | [] => f.follow [] (above + 1) rest
        | _ :: outer => f.follow outer above rest
      else if above = 0 then f.follow (name :: inside) above rest
      else .missing
    | _ => .missing

/-- The names that a path goes through, with those left again taken away. -/
def namesOf (inside : List String) : List String → List String
  | [] => inside.reverse
  | name :: rest =>
    if name == "" || name == "." then namesOf inside rest
    else if name == ".." then namesOf inside.tail rest
    else namesOf (name :: inside) rest

/-- The folder with a file at a path inside it. -/
def write (f : Folder) (path : String) (content : ByteArray) : Folder :=
  { f with files := (namesOf [] (path.splitOn "/"), content) :: f.files }

/-- What a path leads to. The empty path leads nowhere. -/
def look (f : Folder) (path : String) : Stored :=
  if path.isEmpty then .missing
  else if path.startsWith "/" then f.follow [] 1 (path.splitOn "/")
  else f.follow [] 0 (path.splitOn "/")

end Folder

/-- The text of a file. -/
def readSource (f : Folder) (path : String) : Except SpecError String :=
  match f.look path with
  | .missing => .error (.unreadable path .missing)
  | .folder => .error (.unreadable path .directory)
  | .file content =>
    match String.fromUTF8? content with
    | some text => .ok text
    | none => .error (.unreadable path .notText)

/-- The declarations of a source file. Places in it are given with the path as it was asked for. -/
def scanFile (f : Folder) (path : String) : Except SpecError Scanned :=
  match readSource f path with
  | .error e => .error e
  | .ok source =>
    (scanNamed path source).map fun found =>
      { found with events := .enter (.scanning path) :: found.events ++ [.exit] }

end SpecForest.Source
