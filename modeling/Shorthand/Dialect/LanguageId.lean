/-
The dialect an editor's language id stands for.
-/
import Shorthand.Data.Value
import Shorthand.Dialect.Family

namespace Shorthand.Dialect

open Data

/-- Language ids that name a dialect under another name. -/
def aliases : List (Text × Text) :=
  [("typescriptreact", "jsx"), ("javascriptreact", "jsx"), ("jsx-tags", "jsx"),
   ("sass-indented", "sass"), ("jade", "pug")].map fun (a, d) => (a.toList, d.toList)

/-- Words that make a language id that of a dialect of embedded markup. -/
def embeddedMarkupWords : List Text :=
  ["typescriptreact", "javascriptreact", "jsx-tags"].map String.toList

/-- Whether a text goes on with a character of a word. -/
def goesOn : Text → Bool
  | [] => false
  | c :: _ => Text.isWordChar c

/-- Whether one of the words stands at the beginning of a text, ended by a word
boundary. -/
def wordAtFront (words : List Text) (t : Text) : Bool :=
  words.any fun w => match Text.after? w t with
    | some rest => !goesOn rest
    | none => false

/-- Whether one of the words occurs in a text between word boundaries. -/
def holdsWord (words : List Text) : (afterWordChar : Bool) → Text → Bool
  | _, [] => false
  | afterWordChar, c :: rest =>
    (!afterWordChar && wordAtFront words (c :: rest)) ||
      holdsWord words (Text.isWordChar c) rest

/-- The dialect of a language id, if it has one. -/
def ofLanguageId (languageId : Text) : Option Text :=
  if holdsWord embeddedMarkupWords false languageId then some "jsx".toList
  else
    let dialect := (aliases.lookup languageId).getD languageId
    if isKnown dialect then some dialect else none

/-- What a language id or a list of excluded ones may be that cannot be asked for. -/
inductive IdFault where
  /-- A list or a mapping stands among the excluded languages. -/
  | excludedCollection
  /-- The language id is not a text. -/
  | notText
  deriving DecidableEq, Repr

/-- The scalars of a list that holds nothing else. -/
def scalars? (items : List Value) : Option (List Scalar) :=
  items.mapM fun
    | .scalar s => some s
    | _ => none

/-- The dialect to use for a language id, none for an excluded or an unknown one.
Settings may hold values of any type, so that the id and the excluded ones are
values; an id that counts as false is no language at all. -/
def ofExcluding (languageId : Value) (excluded : List Value) : Except IdFault (Option Text) :=
  if !languageId.truthy then .ok none
  else match scalars? excluded, languageId with
    | none, _ => .error .excludedCollection
    | some excluded, .scalar id =>
      if excluded.contains id then .ok none
      else match id with
        | .text id => .ok (ofLanguageId id)
        | _ => .error .notText
    | some _, _ => .error .notText

end Shorthand.Dialect
