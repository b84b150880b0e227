/-
Paths in their normal form: a root and the segments after it. Repeated slashes and
single dots are dropped, two dots are kept, and exactly two slashes at the beginning
are a root of their own.
-/
import Shorthand.Text.Basic

namespace Shorthand.Files

/-- What a path begins with. -/
inductive Root where
  | relative | single | double
  deriving DecidableEq, Repr

def Root.toText : Root → Text
  | .relative => []
  | .single => ['/']
  | .double => ['/', '/']

structure Path where
  root : Root
  segments : List Text
  deriving DecidableEq, Repr

namespace Path

/-- The segments of a text that name something. -/
def segmentsOf (t : Text) : List Text :=
  (Text.splitOn '/' t).filter fun s => !s.isEmpty && s != ['.']

def rootOf : Text → Root
  | '/' :: '/' :: '/' :: _ => .single
  | '/' :: '/' :: _ => .double
  | '/' :: _ => .single
  | _ => .relative

def ofText (t : Text) : Path := ⟨rootOf t, segmentsOf t⟩

def toText (p : Path) : Text :=
  if p.root = .relative && p.segments.isEmpty then ['.']
  else p.root.toText ++ Text.joinWith ['/'] p.segments

def isAbsolute (p : Path) : Bool := p.root != .relative

/-- The path without its last segment. -/
def parent (p : Path) : Path := { p with segments := p.segments.dropLast }

/-- The last segment. -/
def name (p : Path) : Text := p.segments.getLast?.getD []

def child (p : Path) (segment : Text) : Path := { p with segments := p.segments ++ [segment] }

/-- A file name cut before its last dot, unless that dot is its first or last
character. -/
def splitName (name : Text) : Text × Text :=
  let extension := name.reverse.takeWhile (· != '.')
  let stem := name.take (name.length - (extension.length + 1))
  if extension.length < name.length && !extension.isEmpty && !stem.isEmpty then
    (stem, '.' :: extension.reverse)
  else (name, [])

def stem (p : Path) : Text := (splitName p.name).1

def extension (p : Path) : Text := (splitName p.name).2

end Path

end Shorthand.Files
