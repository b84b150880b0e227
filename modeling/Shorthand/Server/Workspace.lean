/-
The documents a client works on. An open one is as the client sent it; any other is a
file, read when its text is needed.
-/
import Shorthand.Abbreviation.Extract
import Shorthand.Files.Disk
import Shorthand.Files.Uri

namespace Shorthand.Server

open Data Files

/-- A document as far as it is known before it is read. -/
inductive Source where
  | opened (document : Document)
  | stored (uri path : Text)
  deriving DecidableEq, Repr

/-- Why a file is no document. -/
inductive SourceFault where
  | access (why : AccessFault)
  | notText
  deriving DecidableEq, Repr

namespace Source

def uri : Source → Text
  | .opened document => document.uri
  | .stored uri _ => uri

/-- The language id a client sent; a file has none. -/
def languageId : Source → Option Text
  | .opened document => document.languageId
  | .stored _ _ => none

/-- The content of the file that a path names. A path that ends like that of a directory
names no file. -/
def content (tree : Tree) (path : Text) : Except AccessFault Text.Bytes := do
  let bytes ← tree.read (Path.ofText path)
  if ["/".toList, "/.".toList].any (·.isSuffixOf path) then throw .notDirectory
  return bytes

/-- The document with its text. A file is UTF-8, and its line breaks become line feeds. -/
def document (tree : Tree) : Source → Except SourceFault Document
  | .opened document => .ok document
  | .stored uri path => match content tree path with
    | .error why => .error (.access why)
    | .ok bytes => match Text.ofUtf8? bytes with
      | none => .error .notText
      | some t => .ok ⟨uri, none, Text.unifyLineBreaks t⟩

end Source

/-- The open documents, by their URIs with every percent sign decoded. -/
structure Workspace where
  documents : Dict Text Document

namespace Workspace

def empty : Workspace := ⟨{}⟩

/-- Takes in a document, in place of one that is open under its URI. -/
def put (w : Workspace) (document : Document) : Except InvalidUri Workspace :=
  match Uri.ofText document.uri with
  | .error why => .error why
  | .ok _ => .ok ⟨w.documents.insert (Uri.percentDecode document.uri) document⟩

/-- Forgets an open document. -/
def close (w : Workspace) (uri : Text) : Workspace :=
  ⟨w.documents.erase (Uri.percentDecode uri)⟩

/-- The document under a URI. -/
def source (w : Workspace) (uri : Text) : Except InvalidUri Source :=
  match w.documents.get? (Uri.percentDecode uri) with
  | some document => .ok (.opened document)
  | none => match Uri.ofText uri with
    | .error why => .error why
    | .ok parts => .ok (.stored uri parts.documentPath)

end Workspace

end Shorthand.Server
