/-
The content of an `[attributes]` block: attributes with blanks between them, each a
name that may be followed by `=` and a value. A value is quoted, in braces, or a run
without blanks and quotes.
-/
import Shorthand.Text.Basic

namespace Shorthand.Abbreviation

open Text (isBlank)

def isAttributeNameChar (c : Char) : Bool :=
  !isBlank c && !(['=', '"', '\'', ']', '{', '}'].contains c)

def isBareValueChar (c : Char) : Bool :=
  !isBlank c && !(['"', '\'', ']'].contains c)

/-- What follows the first `mark` of a text. -/
def afterMark? (mark : Char) : Text → Option Text
  | [] => none
  | c :: rest => if c = mark then some rest else afterMark? mark rest

/-- The texts that may be left after a value: after a quoted one, after one in
braces, after a bare one. -/
def afterValue (t : Text) : List Text :=
  let enclosed := match t with
    | '"' :: rest => (afterMark? '"' rest).toList
    | '\'' :: rest => (afterMark? '\'' rest).toList
    | '{' :: rest => (afterMark? '}' rest).toList
    | _ => []
  enclosed ++ [t.dropWhile isBareValueChar]

/-- The texts that may be left after the name and the value of an attribute. -/
def afterAttribute (t : Text) : List Text :=
  match t.dropWhile isAttributeNameChar with
  | '=' :: rest => afterValue rest
  | rest => [rest]

/-- Whether a text that begins with no blank is a list of attributes. Each attribute
takes at least one character, so that `fuel` characters hold at most `fuel` of them. -/
def attributesWithin : (fuel : Nat) → Text → Bool
  | _, [] => true
  | 0, _ => false
  | fuel + 1, c :: rest =>
    isAttributeNameChar c && (afterAttribute (c :: rest)).any fun left =>
      match left with
      | [] => true
      | b :: more => isBlank b && attributesWithin fuel (more.dropWhile isBlank)

/-- Whether a text is a well-formed list of attributes. -/
def isAttributeList (t : Text) : Bool :=
  attributesWithin t.length (t.dropWhile isBlank)

end Shorthand.Abbreviation
