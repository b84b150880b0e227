/-
Loading a directory of extensions. It has two sources, one of snippets and one of
profiles; a source that cannot be used contributes nothing and is reported.
-/
import Shorthand.Data.Json.Reader
import Shorthand.Data.Yaml.Reader
import Shorthand.Extensions.Snapshot
import Shorthand.Failure
import Shorthand.Files.Disk
import Shorthand.Text.Lines

namespace Shorthand.Extensions

open Data Files

/-- How the two formats of sources are read. -/
structure Readers where
  json : Text → Except ReadFault Value
  yaml : Text → Except ReadFault Value
  /-- What is said of a file that has no value, by its extension and its content: that it is no
  UTF-8, or where it breaks its format. -/
  complaint? : (fileExtension : Text) → (content : Text.Bytes) → Option Text

/-- The readers of this library. They find that a file breaks its format, but do not say where. -/
def Readers.standard : Readers where
  json := Json.read
  yaml := Yaml.read
  complaint? _ _ := none

/-- What is wrong with a source. -/
inductive Problem where
  /-- There is no value in the file, for a reason that may be given. -/
  | unreadable (file : Path) (why : Option Text)
  | notMapping (file : Path) (typeName : Text)
  deriving DecidableEq, Repr

def Problem.message : Problem → Text
  | .unreadable file why => "Error while parsing the file ".toList ++ file.toText ++
    match why with
    | some why => ": ".toList ++ why
    | none => []
  | .notMapping file typeName =>
    "Expected a mapping at the top of ".toList ++ file.toText ++ ", got ".toList ++ typeName

/-- What ends a load without a snapshot. -/
inductive LoadFault where
  | obstacle (why : Obstacle)
  /-- A snippet has for its key an integer with too many digits to be written. -/
  | keyTooLong
  | nameTooLong (path : Path)
  deriving DecidableEq, Repr

def obstacleFailure : Obstacle → Failure
  | .notBool t => ⟨"KeyError".toList, some (Text.quoted t)⟩
  | .blankNumber => ⟨"IndexError".toList, some "string index out of range".toList⟩
  | .notTime =>
    ⟨"AttributeError".toList, some "'NoneType' object has no attribute 'groupdict'".toList⟩
  | .mappingAsTime =>
    ⟨"TypeError".toList, some "expected string or bytes-like object, got 'list'".toList⟩
  | .codePointTooLarge =>
    ⟨"OverflowError".toList, some "Python int too large to convert to C int".toList⟩
  | .unitTooLarge => ⟨"OverflowError".toList, some "int too large to convert to float".toList⟩
  | .tooDeep => ⟨"RecursionError".toList, some "maximum recursion depth exceeded".toList⟩
  | .tooDeepIn mapping =>
    ⟨"RecursionError".toList, some ("maximum recursion depth exceeded while decoding a JSON ".toList ++
      (if mapping then "object" else "array").toList ++ " from a unicode string".toList)⟩

def LoadFault.failure : LoadFault → Failure
  | .obstacle why => obstacleFailure why
  | .keyTooLong => ⟨"ValueError".toList, some ("Exceeds the limit (4300 digits) for integer " ++
      "string conversion; use sys.set_int_max_str_digits() to increase the limit").toList⟩
  | .nameTooLong path => ⟨"OSError".toList, some (AccessFault.nameTooLong.message path)⟩

def snippetsName : Text := "snippets".toList

def profilesName : Text := "syntaxProfiles".toList

/-- The extensions a source may have; the first that exists counts. -/
def sourceExtensions : List Text := [".json", ".yml", ".yaml"].map String.toList

/-- The files a source may be, each with its extension. -/
def sourceFiles (directory : Path) (name : Text) : List (Path × Text) :=
  sourceExtensions.map fun e => (directory.child (name ++ e), e)

/-- The file of a source with its extension. -/
def sourceFile? (tree : Tree) (directory : Path) (name : Text) :
    Except LoadFault (Option (Path × Text)) :=
  match (sourceFiles directory name).find? fun (file, _) => tree.isFile file || tree.isTooLong file with
  | none => .ok none
  | some (file, e) => if tree.isTooLong file then .error (.nameTooLong file) else .ok (some (file, e))

/-- Why a file gives no value. -/
inductive FileFault where
  /-- It cannot be read, or it breaks its format. -/
  | refused (why : Option Text)
  | obstacle (why : Obstacle)
  deriving DecidableEq, Repr

/-- What a fault in the content makes of its file, of which `complaint` is said. -/
def FileFault.ofContent (complaint : Option Text) : ReadFault → FileFault
  | .malformed => .refused complaint
  | .obstacle why => .obstacle why

/-- The reader of the files with an extension. -/
def Readers.ofExtension (readers : Readers) (fileExtension : Text) : Text → Except ReadFault Value :=
  if fileExtension = ".json".toList then readers.json else readers.yaml

/-- The value of a content. It is UTF-8, and line breaks count as line feeds. -/
def readContent (readers : Readers) (fileExtension : Text) (content : Text.Bytes) :
    Except ReadFault Value :=
  match Text.ofUtf8? content with
  | none => .error .malformed
  | some t => readers.ofExtension fileExtension (Text.unifyLineBreaks t)

/-- The value in a file. -/
def readFile (readers : Readers) (tree : Tree) (file : Path) (fileExtension : Text) :
    Except FileFault Value :=
  match tree.read file with
  | .error why => .error (.refused (some (why.message file)))
  | .ok content => (readContent readers fileExtension content).mapError
      (.ofContent (readers.complaint? fileExtension content))

/-- The mapping in a source, empty for a source that is missing or blank, and what is
wrong with it. -/
def readSource (readers : Readers) (tree : Tree) (directory : Path) (name : Text) :
    Except LoadFault (Mapping × Option Problem) :=
  match sourceFile? tree directory name with
  | .error why => .error why
  | .ok none => .ok ({}, none)
  | .ok (some (file, fileExtension)) =>
    match readFile readers tree file fileExtension with
    | .error (.refused why) => .ok ({}, some (.unreadable file why))
    | .error (.obstacle why) => .error (.obstacle why)
    | .ok v => match v.mapping? with
      | some m => .ok (m, none)
      | none => .ok ({}, if v.isNull then none else some (.notMapping file v.typeName))

/-- Whether a section is for a stylesheet dialect. -/
def isStylesheetSection : Scalar → Bool
  | .text dialect => Dialect.isStylesheet dialect
  | _ => false

/-- A snippet as an abbreviation: outside stylesheets one that is raw markup becomes a
block of text. -/
def normalizeSnippet (stylesheet : Bool) (t : Text) : Text :=
  if !stylesheet && t.head? == some '<' && t.getLast? == some '>' then
    '\x7b' :: t ++ ['\x7d']
  else t

/-- The snippets of a section that are texts. A key that is too long to be written has a text here
as well; `load` gives up before it comes to such a key. -/
def normalizeSnippets (stylesheet : Bool) (snippets : Mapping) : Snippets :=
  Dict.ofList <| snippets.entries.filterMap fun (k, v) =>
    v.text?.map fun t => (k.toText, normalizeSnippet stylesheet t)

/-- The sections of the dialects in a source of snippets: all its mappings but the one
of the global variables. -/
def sections (source : Mapping) : List (Scalar × Mapping) :=
  source.entries.filterMap fun (k, v) =>
    if k = .text "variables".toList then none else v.mapping?.map (k, ·)

/-- Whether a section has a snippet whose key is too long. -/
def hasLongKey (source : Mapping) : Bool :=
  (sections source).any fun (_, s) =>
    (((s.get? (.text "snippets".toList)).bind (·.mapping?)).getD {}).entries.any fun (k, v) =>
      k.isTooLong && v.text?.isSome

/-- What each section has under a key, as far as it can be used. -/
def collect {α : Type} (source : Mapping) (key : Text) (use : Scalar → Value → Option α) :
    Dict Scalar α :=
  Dict.ofList <| (sections source).filterMap fun (dialect, s) =>
    ((s.get? (.text key)).bind (use dialect)).map (dialect, ·)

/-- The snapshot of two sources. -/
def snapshotOf (generation : Nat) (directory : Path) (snippets profiles : Mapping) : Snapshot where
  generation := generation
  path := some directory
  snippets := some <| collect snippets "snippets".toList fun dialect v =>
    v.mapping?.map (normalizeSnippets (isStylesheetSection dialect))
  parents := collect snippets "extends".toList fun _ v => v.text?
  vars := ((snippets.get? (.text "variables".toList)).bind (·.mapping?)).getD {}
  dialectVars := collect snippets "variables".toList fun _ v => v.mapping?
  profiles := profiles

/-- The snapshot of a directory, and the problems met on the way. -/
def load (readers : Readers) (tree : Tree) (directory : Path) (generation : Nat) :
    Except LoadFault (Snapshot × List Problem) := do
  let (snippets, snippetsProblem) ← readSource readers tree directory snippetsName
  let (profiles, profilesProblem) ← readSource readers tree directory profilesName
  if hasLongKey snippets then throw .keyTooLong
  return (snapshotOf generation directory snippets profiles,
    snippetsProblem.toList ++ profilesProblem.toList)

end Shorthand.Extensions
