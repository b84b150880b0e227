/-
A file system without links: files and directories by their place under the root, and
the home directories that a path may begin with. Of permissions there is only that to read
a file, which may be missing; every directory can be looked into.
-/
import Shorthand.Data.Dict
import Shorthand.Files.Path
import Shorthand.Text.Quoted
import Shorthand.Text.Utf8

namespace Shorthand.Files

/-- The segments that lead from the root to a file or a directory. -/
abbrev Place := List Text

inductive Entry where
  | directory
  | file (content : Text.Bytes)
  /-- A file that may not be read. -/
  | unreadable
  deriving DecidableEq, Repr

/-- The entries below the root. -/
structure Tree where
  entries : Data.Dict Place Entry

/-- Why a file cannot be read. -/
inductive AccessFault where
  | missing
  | isDirectory
  | notDirectory
  | nameTooLong
  /-- The file is there, but it may not be read. -/
  | denied
  /-- A name has a character that no name may have, that of the code point zero. -/
  | notName
  deriving DecidableEq, Repr

/-- What the system says of a path that it does not read. -/
def AccessFault.message (why : AccessFault) (p : Path) : Text :=
  let numbered (code text : String) : Text :=
    "[Errno ".toList ++ code.toList ++ "] ".toList ++ text.toList ++ ": ".toList ++ Text.quoted p.toText
  match why with
  | .missing => numbered "2" "No such file or directory"
  | .denied => numbered "13" "Permission denied"
  | .notDirectory => numbered "20" "Not a directory"
  | .isDirectory => numbered "21" "Is a directory"
  | .nameTooLong => numbered "36" "File name too long"
  | .notName => "embedded null byte".toList

namespace Tree

def empty : Tree := ⟨{}⟩

def entry? (t : Tree) (place : Place) : Option Entry :=
  if place.isEmpty then some .directory else t.entries.get? place

/-- The bytes that a name may have. -/
def maxNameSize : Nat := 255

/-- The bytes that a path may have. -/
def maxPathSize : Nat := 4095

/-- Follows segments from a place. Each but the last has to lead to a directory, and two
dots lead out of one. -/
def follow (t : Tree) : (place : Place) → List Text → Except AccessFault Place
  | place, [] => .ok place
  | place, segment :: rest =>
    match t.entry? place with
    | some .directory =>
      if maxNameSize < (Text.utf8 segment).length then .error .nameTooLong
      else t.follow (if segment = ['.', '.'] then place.dropLast else place ++ [segment]) rest
    | some _ => .error .notDirectory
    | none => .error .missing

/-- What an absolute path names. -/
def find (t : Tree) (p : Path) : Except AccessFault Entry :=
  if p.segments.any (·.contains '\x00') then .error .notName
  else if maxPathSize < (Text.utf8 p.toText).length then .error .nameTooLong
  else if !p.isAbsolute then .error .missing
  else match t.follow [] p.segments with
    | .error why => .error why
    | .ok place => match t.entry? place with
      | some e => .ok e
      | none => .error .missing

def isDirectory (t : Tree) (p : Path) : Bool :=
  match t.find p with
  | .ok .directory => true
  | _ => false

/-- Whether a path cannot be looked up because it, or a name in it, is too long. -/
def isTooLong (t : Tree) (p : Path) : Bool :=
  match t.find p with
  | .error .nameTooLong => true
  | _ => false

/-- The content of the file that a path names. -/
def read (t : Tree) (p : Path) : Except AccessFault Text.Bytes :=
  match t.find p with
  | .ok (.file content) => .ok content
  | .ok .unreadable => .error .denied
  | .ok .directory => .error .isDirectory
  | .error why => .error why

/-- Whether a path names a file, be it one that may be read or not. -/
def isFile (t : Tree) (p : Path) : Bool :=
  match t.find p with
  | .ok (.file _) | .ok .unreadable => true
  | _ => false

/-- The place that segments lead to when nothing is looked up: two dots undo the segment
before them. -/
def plainPlace (segments : List Text) : Place :=
  segments.foldl (fun place s => if s = ['.', '.'] then place.dropLast else place ++ [s]) []

/-- Makes the directories that lead to a place, those that are missing. -/
def makeDirectoriesFrom (t : Tree) : (place : Place) → List Text → Tree
  | _, [] => t
  | place, s :: rest =>
    let next := place ++ [s]
    let t := if (t.entries.get? next).isSome then t else ⟨t.entries.insert next .directory⟩
    t.makeDirectoriesFrom next rest

/-- Makes a directory and those that lead to it. -/
def makeDirectory (t : Tree) (p : Path) : Tree := t.makeDirectoriesFrom [] (plainPlace p.segments)

/-- Writes a file, making the directories that lead to it. It takes the place of what was
there, and may be read. -/
def write (t : Tree) (p : Path) (content : Text.Bytes) : Tree :=
  let place := plainPlace p.segments
  let t := t.makeDirectoriesFrom [] place.dropLast
  ⟨t.entries.insert place (.file content)⟩

/-- Removes a file, or a directory with all that is in it. -/
def delete (t : Tree) (p : Path) : Tree :=
  let place := plainPlace p.segments
  ⟨.ofList (t.entries.entries.filter fun (q, _) => !place.isPrefixOf q)⟩

end Tree

/-- A file system with the home directories of its users. -/
structure Disk where
  tree : Tree
  home : Path
  homes : List (Text × Path)

/-- Why a path cannot be expanded: nobody has that name. -/
structure UnknownUser where
  name : Text
  deriving DecidableEq, Repr

/-- A path with the home directory in place of a segment `~` or `~name` that it begins
with. -/
def Disk.expandHome (d : Disk) (p : Path) : Except UnknownUser Path :=
  match p.root, p.segments with
  | .relative, ('~' :: name) :: rest =>
    let home := if name.isEmpty then some d.home else d.homes.lookup name
    match home with
    | some home => .ok { home with segments := home.segments ++ rest }
    | none => .error ⟨name⟩
  | _, _ => .ok p

end Shorthand.Files
