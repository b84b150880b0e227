/-
Expansions that are only noise: every word typed in a markup file is a tag name, and
every one in a stylesheet a property without a value. Tags that exist, snippet keys
and custom tags (`custom-tag`, `custom:tag`) are never noise.
-/
import Shorthand.Completion.Vocabulary
import Shorthand.Expansion.Config
import Shorthand.Text.Lowercase

namespace Shorthand.Completion

open Expansion Text

/-- What a tag name of one word is made of. -/
def isTagChar (c : Char) : Bool := isAsciiLetter c || isDecimal c

/-- A custom tag: letters and digits around a single dash or colon. -/
def isCustomTag (t : Text) : Bool :=
  match t.dropWhile isTagChar with
  | c :: rest => (c == '-' || c == ':') && rest.all isTagChar
  | [] => false

/-- The word before a period that ends a text, if there is nothing else. -/
def wordBeforePeriod? (t : Text) : Option Text :=
  if t.dropWhile isTagChar = ['.'] then some (t.takeWhile isTagChar) else none

/-- The text without white space. -/
def withoutBlanks (t : Text) : Text := t.filter (!isBlank ·)

/-- What ends a declaration in a stylesheet dialect: nothing where indentation does. -/
def declarationEnd (dialect : Text) : Text :=
  if dialect = "sass".toList || dialect = "stylus".toList then [] else [';']

/-- Whether a stylesheet expansion is only a property without a value, or the
abbreviation itself. -/
def isStylesheetNoise (dialect abbreviation expanded : Text) : Bool :=
  let stop := declarationEnd dialect
  expanded == abbreviation ++ ": $\x7b1\x7d".toList ++ stop ||
    withoutBlanks expanded == withoutBlanks abbreviation ++ stop

/-- The empty tag of a word. -/
def emptyTag (word : Text) : Text :=
  '<' :: word ++ ">$\x7b1\x7d</".toList ++ word ++ ['>']

/-- Whether a markup abbreviation is known: a tag, a built-in key or a custom key. -/
def isKnownKey (c : Config) (abbreviation : Text) : Bool :=
  commonTags.contains (lower abbreviation) || markupSnippetKeys.contains abbreviation ||
    (c.snippets.map (·.contains abbreviation)).getD false

/-- Whether a markup expansion is only the tag of a word. A sentence ends with a
period, which counts as an abbreviation behind the name of a tag only. -/
def isMarkupNoise (c : Config) (abbreviation expanded : Text) : Bool :=
  if isKnownKey c abbreviation || isCustomTag abbreviation || abbreviation == ['.'] then false
  else match wordBeforePeriod? abbreviation with
    | some word => !htmlTags.contains word
    | none => lower expanded == emptyTag (lower abbreviation)

/-- Whether an expansion is just the user typing a word. -/
def isNoise (c : Config) (abbreviation expanded : Text) : Bool :=
  match c.family with
  | .stylesheet => isStylesheetNoise c.dialect abbreviation expanded
  | .markup => isMarkupNoise c abbreviation expanded

end Shorthand.Completion
