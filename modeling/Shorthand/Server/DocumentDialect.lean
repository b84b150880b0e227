/-
The dialect of a document, from its language id or else from the extension of its
name, under the languages the settings exclude and include.
-/
import Shorthand.Abbreviation.Extract
import Shorthand.Files.Uri
import Shorthand.Settings

namespace Shorthand.Server

open Data

/-- Why the dialect of a document cannot be told. -/
inductive DialectFault where
  | language (why : Dialect.IdFault)
  | uri (why : Files.InvalidUri)
  deriving DecidableEq, Repr

/-- The language id of a document, or the extension of its name when it has none. -/
def languageOf (uri : Text) (languageId : Option Text) : Except DialectFault Text :=
  match languageId with
  | some (c :: rest) => .ok (c :: rest)
  | _ => match Files.Uri.ofText uri with
    | .ok parts => .ok parts.extension
    | .error why => .error (.uri why)

/-- Whether a language id stands in a list of values. -/
def listsLanguage (languages : List Value) (id : Text) : Bool :=
  languages.any fun v => v.text? == some id

/-- The dialect of a document, none when expansion is off for it. -/
def documentDialect (settings : Settings) (uri : Text) (languageId : Option Text) :
    Except DialectFault (Option Text) := do
  let id ← languageOf uri languageId
  if listsLanguage settings.excludedLanguages id then return none
  let language := (settings.includedLanguages.get? (.text id)).getD (.text id)
  match Dialect.ofExcluding language settings.excludedLanguages with
  | .ok dialect => return dialect
  | .error why => throw (.language why)

end Shorthand.Server
